import BuildAlignment.Proofs.Barrier.Renewal
import BuildAlignment.Proofs.ModuleTree.JsonForm
import BuildAlignment.Settings

/-!
# Published replacements are read back

The replacements of a finished tree are saved in their text form. They are read back from it if the
versions that overrides and answers give can stand at the end of a text form, and nobody checks that
they can.

* `ModuleTree.Storable.updateAt` and `ModuleTree.Built.storable`: a tree stays storable where what is
  kept for its modules does, and built trees are.
* `Response.closes_of_alignedVersion?`: a dependency gets a version that closes, or its own.
* `Staging.storable_of_stage_eq_ok`: a storable tree stays so when legible replacements are written.
* `Session.reloads_of_completed`: a finished tree is read back as it was.
* `Session.unreadable_of_colon`: it is not with a value that the configuration accepts.
-/

namespace BuildAlignment

/-! ### Storable trees -/

/-- The replacements of a module are in key order and legible. -/
structure ModuleInfo.Storable (info : ModuleInfo) : Prop where
  ordered : Keyed.Ordered info.aligned
  legible : ∀ entry ∈ info.aligned, entry.2.Legible

namespace ModuleTree

theorem Storable.of_mem_nodes {tree : ModuleTree} (h : Storable tree) :
    ∀ entry ∈ tree.nodes, entry.2.Storable := by
  induction h with
  | @node info children alignedOrder legible childOrder below ih =>
    rintro ⟨keys, found⟩ hentry
    rw [nodes_node] at hentry
    rcases List.mem_cons.1 hentry with heq | hmem
    · cases heq
      exact ⟨alignedOrder, legible⟩
    · obtain ⟨key, child, rest, hchild, hfound, -⟩ := mem_childNodes.1 hmem
      exact ih (key, child) hchild (rest, found) hfound

/-- A change that keeps the replacements of a module in order and legible keeps the tree storable. -/
theorem Storable.updateAt {tree : ModuleTree} (h : Storable tree) {change : ModuleInfo → ModuleInfo}
    (hchange : ∀ info, info.Storable → (change info).Storable) (keys : List String) :
    Storable (tree.updateAt change keys) := by
  induction keys generalizing tree with
  | nil =>
    cases h with
    | @node info children alignedOrder legible childOrder below =>
      have hinfo := hchange info ⟨alignedOrder, legible⟩
      exact .node hinfo.ordered hinfo.legible childOrder below
  | cons key keys ih =>
    cases h with
    | @node info children alignedOrder legible childOrder below =>
      exact .node alignedOrder legible (childOrder.map_at key _)
        (Keyed.forall_map_at key _ below fun _ _ => ih)

theorem Storable.insertBelow {key : String} {child : ModuleTree} (hchild : Storable child)
    {tree : ModuleTree} (h : Storable tree) (steps : List String) :
    Storable (insertBelow key child steps tree) := by
  induction steps generalizing tree with
  | nil =>
    cases h with
    | @node info children alignedOrder legible childOrder below =>
      exact .node alignedOrder legible (Keyed.ordered_insert child childOrder)
        (Keyed.forall_insert key hchild below)
  | cons step steps ih =>
    cases h with
    | @node info children alignedOrder legible childOrder below =>
      exact .node alignedOrder legible (childOrder.map_at step _)
        (Keyed.forall_map_at step _ below fun _ _ => ih)

theorem Built.storable {tree : ModuleTree} (h : Built tree) : Storable tree := by
  have hnew : ∀ name group, Storable (single (.new name group)) := fun _ _ =>
    .node List.Pairwise.nil (fun _ hentry => absurd hentry List.not_mem_nil) List.Pairwise.nil
      fun _ hentry => absurd hentry List.not_mem_nil
  induction h with
  | root name group => exact hnew name group
  | add _ added ih =>
    obtain ⟨parents, last, parent, -, -, -, -, rfl⟩ := add_eq_ok added
    exact (hnew _ _).insertBelow ih parents

/-- What a storable tree holds is read back from its text form. -/
theorem Storable.legible_of_mem_replacementCoordinates {tree : ModuleTree} (h : Storable tree)
    {coordinate : Coordinate} (hmem : coordinate ∈ tree.replacementCoordinates) :
    coordinate.Legible := by
  obtain ⟨entry, hentry, haligned⟩ := List.mem_flatMap.1 hmem
  obtain ⟨found, hfound, rfl⟩ := List.mem_map.1 haligned
  exact (h.of_mem_nodes entry hentry).legible found hfound

/-- What a tree tells for a dependency is one of its replacements. -/
theorem mem_replacementCoordinates_of_told {tree : ModuleTree} {path : String}
    {declared found : Coordinate} (h : tree.told? path declared = some found) :
    found ∈ tree.replacementCoordinates := by
  rw [told?] at h
  split at h
  · obtain ⟨below, hfind, haligned⟩ := Option.bind_eq_some_iff.1 h
    rw [find] at hfind
    split at hfind
    · cases hfind
    · rename_i keys _
      cases hlocated : tree.locate? keys with
      | none => simp [hlocated, Except.toOption] at hfind
      | some reached =>
        simp only [hlocated, Except.toOption, Option.some.injEq] at hfind
        subst hfind
        refine List.mem_flatMap.2 ⟨_, mem_nodes_of_locate? hlocated, ?_⟩
        exact List.mem_map_of_mem (Keyed.mem_of_find? haligned)
  · cases h

end ModuleTree

/-! ### Versions that are given -/

/-- The versions that the rules of a layer give can stand at the end of a text form. -/
def OverrideLayer.Closes (layer : OverrideLayer) : Prop :=
  ∀ entry ∈ layer, entry.2 ≠ "" → Version.Closes entry.2

/-- The versions of an answer can stand at the end of a text form. -/
def NewVersions.Closes (versions : NewVersions) : Prop :=
  ∀ entry ∈ versions, Text.isBlank entry.2 = false → Version.Closes entry.2

/-- A dependency gets a version that can stand at the end, or keeps its own. -/
theorem Response.closes_of_alignedVersion? {response : Response}
    (hlayers : ∀ layer ∈ response.layers, layer.Closes) (hversions : response.versions.Closes)
    {coordinate owner : Coordinate} {version : String}
    (h : response.alignedVersion? coordinate owner = some version) :
    Version.Closes version ∨ version = coordinate.version := by
  rw [alignedVersion?] at h
  split at h
  · rename_i given hgiven
    cases h
    obtain ⟨layer, hlayer, hversion⟩ := List.exists_of_findSome?_eq_some hgiven
    obtain ⟨entry, hentry, rfl⟩ := Option.map_eq_some_iff.1 hversion
    have hspeaks := List.find?_some hentry
    rw [Bool.and_eq_true, bne_iff_ne] at hspeaks
    exact .inl (hlayers layer (List.mem_reverse.1 hlayer) entry (List.mem_of_find?_eq_some hentry)
      hspeaks.1)
  · split at h
    · rename_i answered hanswered
      cases h
      obtain ⟨hfound, hblank⟩ := Option.filter_eq_some_iff.1 hanswered
      exact .inl (hversions _ (NewVersions.mem_of_find? hfound) (by simpa using hblank))
    · rw [pinnedVersion?] at h
      split at h
      · exact .inr (Option.some.inj h).symm
      · cases h

/-! ### What is written -/

namespace Staging

variable {staging : Staging}

/-- The replacement that is written for a legible dependency is legible. -/
theorem legible_of_written? (hlayers : ∀ layer ∈ staging.response.layers, layer.Closes)
    (hversions : staging.response.versions.Closes) {dependency : Dependency}
    (hresolved : ∀ resolved ∈ dependency.resolved, resolved.Legible) {owner : Coordinate}
    {entry : String × Coordinate} (h : staging.written? owner dependency = some entry) :
    entry.2.Legible := by
  rw [written?, Dependency.replacement?] at h
  obtain ⟨resolved, hlisted, hentry⟩ := Option.bind_eq_some_iff.1 h
  have hlegible := hresolved resolved hlisted
  split at hentry
  · rename_i version hversion
    cases hentry
    rcases Response.closes_of_alignedVersion? hlayers hversions hversion with hcloses | rfl
    · exact (Coordinate.legible_withVersion_iff hlegible hcloses.nonempty).2 hcloses
    · exact hlegible
  · split at hentry
    · cases hentry
      exact hlegible
    · cases hentry

theorem storable_filled {request : ModuleRequest} {info : ModuleInfo} (h : info.Storable)
    (hwritten : ∀ dependency ∈ request.dependencies,
      ∀ entry ∈ staging.written? request.owner dependency, entry.2.Legible) :
    (staging.filled request info).Storable := by
  refine ⟨Keyed.ordered_foldl_insert _ h.ordered, ?_⟩
  intro entry hentry
  rcases Keyed.mem_foldl_insert hentry with hold | hnew
  · exact h.legible entry hold
  · obtain ⟨dependency, hdependency, hwrites⟩ := List.mem_filterMap.1 hnew
    exact hwritten dependency hdependency entry hwrites

theorem storable_of_stageModules_eq_ok {requests : List ModuleRequest}
    (hwritten : ∀ request ∈ requests, ∀ dependency ∈ request.dependencies,
      ∀ entry ∈ staging.written? request.owner dependency, entry.2.Legible)
    {before after : ModuleTree} (h : before.Storable)
    (hstage : staging.stageModules requests before = .ok after) : after.Storable := by
  induction requests generalizing before with
  | nil =>
    cases hstage
    exact h
  | cons request rest ih =>
    rw [stageModules, List.foldlM_cons] at hstage
    cases hnext : staging.stageModule before request with
    | error error =>
      rw [hnext] at hstage
      cases hstage
    | ok next =>
      rw [hnext] at hstage
      obtain ⟨keys, old, info, -, hold, hinfo, rfl⟩ := ModuleTree.of_change_eq_ok hnext
      obtain ⟨found, hfound, rfl⟩ := Option.map_eq_some_iff.1 hold
      have hstored : info.Storable := by
        rw [of_stageInfo_eq_ok hinfo]
        exact storable_filled (h.of_mem_nodes _ (ModuleTree.mem_nodes_of_locate? hfound))
          (hwritten request List.mem_cons_self)
      exact ih (fun later hlater => hwritten later (List.mem_cons_of_mem _ hlater))
        (h.updateAt (fun _ _ => hstored) keys) hstage

theorem storable_of_stage_eq_ok {request : Request} {before after : ModuleTree} (h : before.Storable)
    (hwritten : ∀ entry ∈ request.modules, ∀ dependency ∈ entry.dependencies,
      ∀ written ∈ staging.written? entry.owner dependency, written.2.Legible)
    (hstage : stage staging request before = .ok after) : after.Storable := by
  rw [stage] at hstage
  split at hstage
  · cases hstage
  · rename_i started hroot
    obtain ⟨group, -, rfl⟩ := of_stageRoot_eq_ok hroot
    have hroot : ∀ info : ModuleInfo, info.Storable →
        (info.asRoot request.projectVersion group).Storable :=
      fun _ hinfo => ⟨hinfo.ordered, hinfo.legible⟩
    exact storable_of_stageModules_eq_ok hwritten (h.updateAt hroot []) hstage

end Staging

/-! ### Finished builds -/

namespace Barrier

/-- What a barrier keeps of a dependency is resolved to what was registered, or to what an earlier
tree tells. -/
theorem resolved_of_sift {tree : ModuleTree} {aligner : Aligner} {policy : BarrierPolicy}
    {fresh : Barrier} (made : Barrier.new tree aligner policy = .ok fresh)
    (previous : Option ModuleTree) {entry : Registered} {dependency : Dependency}
    (hdependency : dependency ∈ ((fresh.seededWith previous).sift entry).2.dependencies)
    {resolved : Coordinate} (hresolved : resolved ∈ dependency.resolved) :
    (∃ registered ∈ entry.2.dependencies, resolved ∈ registered.resolved) ∨
      ∃ earlier ∈ previous, resolved ∈ earlier.replacementCoordinates := by
  obtain ⟨registered, hregistered, rfl⟩ := List.mem_map.1 hdependency
  rw [Dependency.seed_eq, find?_recorded_told made] at hresolved
  obtain ⟨found, hfound, rfl⟩ := Option.map_eq_some_iff.1 hresolved
  have hlisted := (List.mem_filter.1 hregistered).1
  cases htold : previous.bind fun earlier => earlier.told? entry.1 registered.declared with
  | none => exact .inl ⟨registered, hlisted, hfound⟩
  | some earlier =>
    rw [Coordinate.renewed]
    split
    · exact .inl ⟨registered, hlisted, hfound⟩
    · obtain ⟨known, hknown, htold⟩ := Option.bind_eq_some_iff.1 htold
      exact .inr ⟨known, hknown, ModuleTree.mem_replacementCoordinates_of_told htold⟩

/-- What the registrations of a build lead to is storable, if what is resolved is legible and the
versions that are given can stand at the end. -/
theorem Success.storable {barrier : Barrier} {modules : List Registered} {combined : Request}
    {answer adjusted : Response} {result : ModuleTree} {handle : AlignmentHandle}
    (success : barrier.Success modules combined answer adjusted result handle)
    (htree : barrier.tree.Storable)
    (hresolved : ∀ entry ∈ modules, ∀ dependency ∈ entry.2.dependencies,
      ∀ resolved ∈ dependency.resolved, resolved.Legible)
    (hrules : ∀ layer ∈ barrier.aligner.adjustments.filterMap Adjustment.layer?, layer.Closes)
    (hanswer : answer.versions.Closes) : result.Storable := by
  obtain ⟨skipped, hstaged⟩ := success.staged
  obtain ⟨hstage, -⟩ := of_stageResponse_eq_ok hstaged
  have hadjusted := Response.adjusted_of_foldlM success.change
  refine Staging.storable_of_stage_eq_ok htree ?_ hstage
  intro entry hentry dependency hdependency written hwritten
  refine Staging.legible_of_written? ?_ ?_ ?_ hwritten
  · show ∀ layer ∈ adjusted.layers, layer.Closes
    rw [hadjusted.layers, success.plain.1, List.nil_append]
    exact hrules
  · show adjusted.versions.Closes
    rw [hadjusted.versions]
    exact hanswer
  · obtain ⟨request, hrequest, -, -, hsubset⟩ := Aligner.mem_of_mem_restricted hentry
    rw [modules_of_combinedRequest success.request] at hrequest
    obtain ⟨kept, hkept, rfl⟩ := List.mem_map.1 hrequest
    exact hresolved kept hkept dependency (List.mem_filter.1 (hsubset hdependency)).1

end Barrier

namespace Session

/-- The tree of a finished build is read back as it was, and so is every replacement in it, if the
versions that are given can stand at the end of a text form. Every dependency came from a text with a
version, and what is known of an earlier run was read back too. -/
theorem reloads_of_completed {tree : ModuleTree} {aligner : Aligner} {policy : BarrierPolicy}
    {previous : Option ModuleTree} {fresh : Barrier} (built : tree.Built)
    (made : Barrier.new tree aligner policy = .ok fresh) (registrations : List Registration)
    (hparsed : ∀ registration ∈ registrations, ∀ dependency ∈ registration.dependencies,
      ∀ resolved ∈ dependency.resolved, resolved.version ≠ "" ∧
        ∃ text, Coordinate.parse text = .ok resolved)
    (hprevious : ∀ earlier ∈ previous, ∀ coordinate ∈ earlier.replacementCoordinates,
      Coordinate.parse coordinate.display = .ok coordinate)
    (schedule : List Nat) {session : Session}
    (hsession : session
      = (Session.start (fresh.seededWith previous) registrations).run schedule)
    (hrules : ∀ layer ∈ aligner.adjustments.filterMap Adjustment.layer?, layer.Closes)
    (hanswers : ∀ versions, Answered aligner.authority aligner.source session.barrier.asked
      versions → versions.Closes)
    {result : ModuleTree} (hmodel : session.barrier.finishedModel = .ok result) :
    (∀ coordinate ∈ result.replacementCoordinates,
        Coordinate.parse coordinate.display = .ok coordinate) ∧
      (result.toJson.nesting < 128 → ModuleTree.read? result.render = some result) := by
  obtain ⟨handle, hhandle, -⟩ := of_map_eq_ok hmodel
  have opened := Barrier.opened_seededWith made previous
  obtain ⟨registers, hasked, combined, answer, adjusted, success⟩ :=
    success_of_completed built opened registrations schedule hsession hhandle hmodel
  have haligner : (fresh.seededWith previous).aligner = aligner := by rw [opened.eq]
  have hanswer := success.answered
  rw [haligner, ← hasked] at hanswer
  have hlegible : ∀ entry ∈ (session.registered tree.paths).map (fresh.seededWith previous).sift,
      ∀ dependency ∈ entry.2.dependencies, ∀ resolved ∈ dependency.resolved,
        resolved.Legible := by
    intro entry hentry dependency hdependency resolved hresolved
    obtain ⟨registered, hregistered, rfl⟩ := List.mem_map.1 hentry
    rcases Barrier.resolved_of_sift made previous hdependency hresolved with
      ⟨known, hknown, hsame⟩ | ⟨earlier, hearlier, hmem⟩
    · obtain ⟨call, -, hcall, -⟩ := registers.calls registered hregistered
      rw [hsession, run_registrations_eq] at hcall
      obtain ⟨hversion, text, htext⟩ :=
        hparsed _ (List.mem_of_getElem? hcall) known hknown resolved hsame
      exact Coordinate.legible_of_parse htext hversion
    · exact Coordinate.parse_display_iff.1 (hprevious earlier hearlier resolved hmem)
  have hstorable : result.Storable := by
    refine success.storable ?_ hlegible (haligner ▸ hrules) (hanswers _ hanswer)
    rw [opened.tree_eq]
    exact built.storable
  refine ⟨?_, ModuleTree.read?_render hstorable⟩
  intro coordinate hmem
  exact Coordinate.parse_display (hstorable.legible_of_mem_replacementCoordinates hmem)

end Session

namespace SmallBuild

theorem parsed_bothModules : ∀ registration ∈ bothModules,
    ∀ dependency ∈ registration.dependencies, ∀ resolved ∈ dependency.resolved,
      resolved.version ≠ "" ∧ Coordinate.parse resolved.display = .ok resolved := by decide

def overriding : Settings :=
  { source := .disabled, overrides := ⟨[("org.lib:*@*", "2:0")]⟩ }

def colonRule : Rule × String :=
  (⟨"org.lib:*@*", ⟨.literal "org.lib", .wildcard, .wildcard⟩, .any⟩, "2:0")

def overridingAligner : Aligner :=
  .withAdjustment (.withAdjustment (.withAdjustment { authority := none, source := .disabled }
    (.projectVersion (overriding.projectVersionSettings none))) .pinDynamic) (.override [colonRule])

def overridingBarrier : Barrier :=
  { aligner := overridingAligner
    policy := overriding.barrierPolicy, order := [":", ":core"], remaining := [":", ":core"], tree }

theorem aligner_overriding : overriding.aligner none none = .ok overridingAligner := by
  have hexclusions : overriding.exclusionRules = .ok [] := by decide +kernel
  have hoverrides : overriding.overrideRules = .ok [colonRule] := by decide +kernel
  rw [Settings.aligner, hexclusions, hoverrides]
  rfl

end SmallBuild

namespace Session

open SmallBuild

/-- What was answered, pinned, overridden and taken over from an earlier alignment is read back. -/
theorem reloads_of_small_build :
    let session := (Session.start (adjustedBarrier.seededWith (some earlier)) bothModules).run
      [0, 1, 0, 1, 1, 1]
    session.barrier.tree.replacementCoordinates
        = [⟨"org.lib", "http", "2.0"⟩, ⟨"org.lib", "rpc", "1.3"⟩, ⟨"org.log", "api", "3.0"⟩,
          ⟨"org.lib", "base", "1.5"⟩] ∧
      (∀ coordinate ∈ session.barrier.tree.replacementCoordinates,
        Coordinate.parse coordinate.display = .ok coordinate) ∧
      ModuleTree.read? session.barrier.tree.render = some session.barrier.tree := by
  intro session
  have hphase : session.barrier.phase
      = .completed ⟨"1.0", false, [(":", [⟨"org.lib", "text", "1.0"⟩])]⟩ := by decide +kernel
  have made : Barrier.new tree (.assembled (some answers) .rest [] changes) {}
      = .ok adjustedBarrier := rfl
  have hparsed : ∀ registration ∈ bothModules, ∀ dependency ∈ registration.dependencies,
      ∀ resolved ∈ dependency.resolved, resolved.version ≠ "" ∧
        ∃ text, Coordinate.parse text = .ok resolved := by
    intro registration hregistration dependency hdependency resolved hresolved
    obtain ⟨hversion, htext⟩ :=
      parsed_bothModules registration hregistration dependency hdependency resolved hresolved
    exact ⟨hversion, _, htext⟩
  have hprevious : ∀ known ∈ some earlier, ∀ coordinate ∈ known.replacementCoordinates,
      Coordinate.parse coordinate.display = .ok coordinate := by decide
  have hthree : Version.Closes "3.0" := ⟨by decide, by decide, by rintro c ⟨⟩; decide⟩
  have htwo : Version.Closes "2.0" := ⟨by decide, by decide, by rintro c ⟨⟩; decide⟩
  have hrules : ∀ layer ∈ (Aligner.assembled (some answers) .rest [] changes
      ).adjustments.filterMap Adjustment.layer?, layer.Closes := by
    intro layer hlayer entry hentry _
    obtain rfl := List.mem_singleton.1 hlayer
    obtain rfl := List.mem_singleton.1 hentry
    exact hthree
  have hanswers : ∀ versions, Answered (some answers) .rest session.barrier.asked versions →
      versions.Closes := by
    intro versions hanswered entry hentry _
    cases hanswered with
    | rest there answer =>
      cases there
      cases answer
      obtain rfl := List.mem_singleton.1 hentry
      exact htwo
  obtain ⟨hread, hreload⟩ := reloads_of_completed built made bothModules hparsed hprevious
    [0, 1, 0, 1, 1, 1] rfl hrules hanswers (Barrier.finished_of_completed hphase).2
  exact ⟨by decide +kernel, hread, hreload (by decide +kernel)⟩

/-- The configuration accepts a version with a colon. It is written into the tree, and neither the
replacement nor the saved tree can be read back. -/
theorem unreadable_of_colon :
    let run := overridingBarrier.registerAll [registrationOf ":" "app" [],
      registrationOf ":core" "core" [.exact ⟨"org.lib", "base", "1.0"⟩]]
    overriding.validate = .ok () ∧ overriding.aligner none none = .ok overridingAligner ∧
      Barrier.new tree overridingAligner overriding.barrierPolicy = .ok overridingBarrier ∧
      Coordinate.parse "org.lib:base:1.0" = .ok ⟨"org.lib", "base", "1.0"⟩ ∧
      run.1.finishedModel.map ModuleTree.replacementCoordinates
        = .ok [⟨"org.lib", "base", "2:0"⟩] ∧
      Coordinate.parse (Coordinate.display ⟨"org.lib", "base", "2:0"⟩)
        = .error (.configuration (.coordinate "org.lib:base:2:0" .shape)) ∧
      run.1.finishedModel.map (fun result => (ModuleTree.read? result.render).isNone)
        = .ok true := by
  intro run
  refine ⟨by decide +kernel, aligner_overriding, rfl, by decide, by decide +kernel, by decide, ?_⟩
  simp only [ModuleTree.read?_render_eq]
  decide +kernel

end Session

end BuildAlignment
