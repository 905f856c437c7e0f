import BuildAlignment.Barrier.Staging
import BuildAlignment.Proofs.Text.Fields

/-!
# The group of the root

A root without a group gets the start that the groups right below it have in common.

* `IsCommonStart` holds of the segments that some groups have in common, as many as possible. By
  `exists_isCommonStart` these make up the common group, and by `IsCommonStart.isLongestStart_iff`
  they are the one longest list of segments that begins every group.
* `IsWholeStart` says on texts that one begins another without splitting a segment.
* `commonGroup_longest`: the common group is the longest whole start of all groups. It does not
  depend on their order, nor on how often they come, and more groups only shorten it.
* `ModuleTree.RootGroup` says which group the root of a tree ends with.
* `of_stageRoot_eq_ok`: filling in the root gives it this group and a former version.
-/

namespace BuildAlignment

/-! ### What groups have in common -/

/-- A list of segments is the start of what two lists share when it is the start of both. -/
theorem prefix_sharedStart_iff {start first second : List String} :
    start <+: sharedStart first second ↔ start <+: first ∧ start <+: second := by
  induction first generalizing start second with
  | nil =>
    rw [sharedStart]
    · exact ⟨fun h => ⟨h, h.trans List.nil_prefix⟩, And.left⟩
    · simp
  | cons segment rest ih =>
    cases second with
    | nil =>
      rw [sharedStart]
      · exact ⟨fun h => ⟨h.trans List.nil_prefix, h⟩, And.right⟩
      · simp
    | cons other others =>
      rw [sharedStart]
      cases start with
      | nil => simp
      | cons head tail =>
        by_cases heq : segment = other
        · rw [if_pos heq, List.cons_prefix_cons, List.cons_prefix_cons, List.cons_prefix_cons, ih,
            heq]
          exact and_and_left
        · rw [if_neg heq]
          refine ⟨fun h => absurd h (by simp), ?_⟩
          rintro ⟨hfirst, hsecond⟩
          have hhead := (List.cons_prefix_cons.1 hfirst).1
          exact absurd (hhead.symm.trans (List.cons_prefix_cons.1 hsecond).1) heq

/-- The segments that all groups begin with, as many of them as there are: what begins every group
is the start of them. -/
def IsCommonStart (groups shared : List String) : Prop :=
  ∀ start, start <+: shared ↔ ∀ group ∈ groups, start <+: Text.fields '.' group

theorem prefix_foldl_sharedStart_iff {start segments : List String} (groups : List String) :
    start <+: groups.foldl (fun shared other => sharedStart shared (Text.fields '.' other)) segments
      ↔ start <+: segments ∧ ∀ group ∈ groups, start <+: Text.fields '.' group := by
  induction groups generalizing segments with
  | nil => simp
  | cons group rest ih =>
    rw [List.foldl_cons, ih, prefix_sharedStart_iff, List.forall_mem_cons, and_assoc]

theorem exists_isCommonStart {groups : List String} (hne : groups ≠ []) :
    ∃ shared, IsCommonStart groups shared ∧ commonGroup groups = ".".intercalate shared := by
  cases groups with
  | nil => exact absurd rfl hne
  | cons group rest =>
    refine ⟨_, ?_, rfl⟩
    intro start
    rw [prefix_foldl_sharedStart_iff, List.forall_mem_cons]

/-- A list of segments begins every group, and no list that does is longer. -/
structure IsLongestStart (groups shared : List String) : Prop where
  begins : ∀ group ∈ groups, shared <+: Text.fields '.' group
  longest : ∀ start, (∀ group ∈ groups, start <+: Text.fields '.' group) →
    start.length ≤ shared.length

namespace IsCommonStart

variable {groups others shared : List String}

theorem begins (h : IsCommonStart groups shared) :
    ∀ group ∈ groups, shared <+: Text.fields '.' group := (h shared).1 List.prefix_rfl

/-- There are groups, since without any every list would begin them all. -/
theorem nonempty (h : IsCommonStart groups shared) : groups ≠ [] := by
  rintro rfl
  have hlonger : shared ++ [""] <+: shared := (h _).2 fun group hgroup => nomatch hgroup
  exact absurd hlonger.length_le (by simp)

/-- What groups have in common is the one longest start. -/
theorem isLongestStart_iff (h : IsCommonStart groups shared) (other : List String) :
    IsLongestStart groups other ↔ other = shared := by
  constructor
  · intro hother
    -- It begins what is shared, and what is shared is not longer.
    have hprefix : other <+: shared := (h other).2 hother.begins
    exact hprefix.eq_of_length_le (hother.longest shared h.begins)
  · rintro rfl
    exact ⟨h.begins, fun start hstart => ((h start).2 hstart).length_le⟩

/-- It only counts which groups there are. -/
theorem congr (h : IsCommonStart groups shared) (hsame : ∀ group, group ∈ others ↔ group ∈ groups) :
    IsCommonStart others shared := by
  intro start
  simp only [hsame]
  exact h start

theorem commonGroup_eq (h : IsCommonStart groups shared) :
    commonGroup groups = ".".intercalate shared := by
  obtain ⟨other, hother, heq⟩ := exists_isCommonStart h.nonempty
  rw [heq, (h.isLongestStart_iff other).1 ((hother.isLongestStart_iff other).2 rfl)]

/-- The segments of the common group are the shared ones. Without any it is empty and has one empty
segment. -/
theorem fields_commonGroup (h : IsCommonStart groups shared) (hsome : shared ≠ []) :
    Text.fields '.' (commonGroup groups) = shared := by
  rw [h.commonGroup_eq]
  obtain ⟨group, hgroup⟩ := List.exists_mem_of_ne_nil groups h.nonempty
  have hfree : ∀ segment ∈ shared, '.' ∉ segment.toList := fun segment hsegment =>
    Text.not_mem_of_mem_fields ((h.begins group hgroup).subset hsegment)
  exact Text.cut_iff.1 ⟨hsome, hfree, rfl⟩

end IsCommonStart

/-! ### Whole starts -/

/-- A text is another one, or goes on with a dot where the other one ends. -/
def IsWholeStart (start text : String) : Prop :=
  text = start ∨ ∃ rest, text = start ++ "." ++ rest

/-- A whole start has the first segments of a text, each of them whole. -/
theorem isWholeStart_iff {start text : String} :
    IsWholeStart start text ↔ Text.fields '.' start <+: Text.fields '.' text := by
  constructor
  · rintro (rfl | ⟨rest, rfl⟩)
    · exact List.prefix_rfl
    · have hcut : Text.Cut '.' (start ++ "." ++ rest)
          (Text.fields '.' start ++ Text.fields '.' rest) :=
        (Text.cut_fields '.' start).append (Text.cut_fields '.' rest)
      rw [Text.cut_iff.1 hcut]
      exact List.prefix_append _ _
  · rintro ⟨after, hafter⟩
    have hstart := Text.cut_fields '.' start
    have hjoined := (Text.cut_fields '.' text).joined
    by_cases hend : after = []
    · left
      rw [← hjoined, ← hafter, hend, List.append_nil, hstart.joined]
    · right
      refine ⟨".".intercalate after, ?_⟩
      rw [← hjoined, ← hafter, String.intercalate_append_of_ne_nil hstart.nonempty hend,
        hstart.joined]

instance (start text : String) : Decidable (IsWholeStart start text) :=
  decidable_of_iff _ isWholeStart_iff.symm

/-- The common group is a whole start of every group, unless it is empty. -/
theorem isWholeStart_of_mem {groups : List String} (h : commonGroup groups ≠ "") {group : String}
    (hgroup : group ∈ groups) : IsWholeStart (commonGroup groups) group := by
  obtain ⟨shared, hcommon, heq⟩ := exists_isCommonStart (List.ne_nil_of_mem hgroup)
  have hsome : shared ≠ [] := by
    rintro rfl
    exact h heq
  rw [isWholeStart_iff, hcommon.fields_commonGroup hsome]
  exact hcommon.begins group hgroup

theorem isWholeStart_commonGroup {groups : List String} (hne : groups ≠ []) {start : String}
    (h : ∀ group ∈ groups, IsWholeStart start group) : IsWholeStart start (commonGroup groups) := by
  obtain ⟨shared, hcommon, -⟩ := exists_isCommonStart hne
  have hstart : Text.fields '.' start <+: shared :=
    (hcommon _).2 fun group hgroup => isWholeStart_iff.1 (h group hgroup)
  have hsome : shared ≠ [] := by
    rintro rfl
    exact (Text.cut_fields '.' start).nonempty (List.prefix_nil.1 hstart)
  rwa [isWholeStart_iff, hcommon.fields_commonGroup hsome]

/-- The common group of some groups is the dotted text of the longest list of segments that begins
every group. It only counts which groups there are, not in which order or how often they come. No
segment is split, as the common group is a whole start of each group, and each whole start that the
groups share is one of it. With more groups it is a whole start of what it was, or empty. -/
theorem commonGroup_longest {groups : List String} (hne : groups ≠ []) :
    (∃ shared, (∀ other, IsLongestStart groups other ↔ other = shared) ∧
      commonGroup groups = ".".intercalate shared) ∧
    (∀ others, (∀ group, group ∈ others ↔ group ∈ groups) →
      commonGroup others = commonGroup groups) ∧
    (commonGroup groups = "" ∨ ∀ group ∈ groups, IsWholeStart (commonGroup groups) group) ∧
    (∀ start, (∀ group ∈ groups, IsWholeStart start group) →
      IsWholeStart start (commonGroup groups)) ∧
    ∀ more, groups ⊆ more →
      commonGroup more = "" ∨ IsWholeStart (commonGroup more) (commonGroup groups) := by
  obtain ⟨shared, hcommon, heq⟩ := exists_isCommonStart hne
  refine ⟨⟨shared, hcommon.isLongestStart_iff, heq⟩, fun others hsame => ?_, ?_,
    fun start hstart => isWholeStart_commonGroup hne hstart, fun more hmore => ?_⟩
  · rw [(hcommon.congr hsame).commonGroup_eq, heq]
  · exact or_iff_not_imp_left.2 fun h group hgroup => isWholeStart_of_mem h hgroup
  · refine or_iff_not_imp_left.2 fun h => isWholeStart_commonGroup hne fun group hgroup => ?_
    exact isWholeStart_of_mem h (hmore hgroup)

/-- Groups that part inside a segment, in another order and repeated, and what is left with one that
adds a segment and with one that shares none. -/
theorem commonGroup_longest_of_neighbours :
    let groups := ["org.acme", "org.acmeinc"]
    groups ≠ [] ∧ IsLongestStart groups ["org"] ∧ commonGroup groups = "org" ∧
      commonGroup ["org.acmeinc", "org.acme", "org.acmeinc"] = "org" ∧
      IsWholeStart "org" "org.acmeinc" ∧ ¬ IsWholeStart "org.acme" "org.acmeinc" ∧
      IsWholeStart (commonGroup ("org.acme.tools" :: groups)) "org" ∧
      commonGroup ("com.acme" :: groups) = "" := by
  intro groups
  have hne : groups ≠ [] := by decide
  have hlong : IsLongestStart groups ["org"] := by
    refine ⟨by decide, fun start hstart => ?_⟩
    have hfirst := hstart "org.acme" (by decide)
    have hsecond := hstart "org.acmeinc" (by decide)
    exact (prefix_sharedStart_iff.2 ⟨hfirst, hsecond⟩).length_le
  obtain ⟨⟨shared, hlongest, hgroup⟩, hsame, hwhole, -, hmore⟩ := commonGroup_longest hne
  obtain rfl : ["org"] = shared := (hlongest _).1 hlong
  have horg : commonGroup groups = "org" := hgroup
  rw [horg] at hsame hwhole hmore
  refine ⟨hne, hlong, horg, hsame _ fun group => ?_, ?_, by decide, ?_, by decide⟩
  · simp only [groups, List.mem_cons, List.not_mem_nil, or_false]
    tauto
  · exact hwhole.resolve_left (by decide) _ (by decide)
  · exact (hmore _ (List.subset_cons_self _ _)).resolve_left (by decide)

example : commonGroup ["org..a", "org..b"] = "org." := by decide

/-! ### Filling in the root -/

/-- The groups right below the root, as far as they say something. -/
def ModuleTree.childGroups (tree : ModuleTree) : List String :=
  (tree.children.map fun entry => entry.2.info.group).filter fun group => !Text.isBlank group

/-- The group that the root of a tree ends with: its own, or what the groups right below have in
common. -/
def ModuleTree.RootGroup (tree : ModuleTree) (group : String) : Prop :=
  if Text.isBlank tree.info.group then
    ∃ shared, IsCommonStart tree.childGroups shared ∧ group = ".".intercalate shared
  else group = tree.info.group

/-- A root with its former version and its group. -/
def ModuleInfo.asRoot (version group : String) (info : ModuleInfo) : ModuleInfo :=
  { info with formerVersion := some version, group }

theorem ModuleInfo.version_asRoot (version group : String) (info : ModuleInfo) :
    (info.asRoot version group).version = info.version := rfl

/-- The root gets its former version and its group, and nothing else changes. -/
theorem of_stageRoot_eq_ok {version : String} {before after : ModuleTree}
    (h : stageRoot version before = .ok after) :
    ∃ group, before.RootGroup group ∧
      after = before.updateAt (ModuleInfo.asRoot version group) [] := by
  cases before with
  | node info children =>
    rw [stageRoot] at h
    by_cases hblank : Text.isBlank (ModuleTree.node info children).info.group
    · simp only [if_pos hblank] at h
      split at h
      · cases h
      · rename_i hshared
        have hsome : (ModuleTree.node info children).childGroups ≠ [] := fun hnone =>
          hshared (congrArg commonGroup hnone)
        obtain ⟨shared, hcommon, hgroup⟩ := exists_isCommonStart hsome
        refine ⟨_, ?_, (Except.ok.inj h).symm⟩
        rw [ModuleTree.RootGroup, if_pos hblank]
        exact ⟨shared, hcommon, hgroup⟩
    · simp only [if_neg hblank] at h
      refine ⟨info.group, ?_, (Except.ok.inj h).symm⟩
      rw [ModuleTree.RootGroup, if_neg hblank]
      rfl

end BuildAlignment
