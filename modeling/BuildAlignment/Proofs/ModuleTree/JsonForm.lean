import BuildAlignment.ModuleTree.JsonForm
import BuildAlignment.Proofs.Coordinate
import BuildAlignment.Proofs.Json.RoundTrip
import BuildAlignment.Proofs.Keyed

/-!
# Saved trees are read back

A tree that was saved is read back as it was, with everything that is kept for its modules.

* `Json.nesting` is how deep lists and objects lie in each other.
* `ModuleTree.Storable` holds of trees with legible replacements and with maps in key order.
* `ModuleTree.Storable.ofJson?_toJson`: such a tree is read back from its JSON form, at any depth that
  is large enough for its nesting.
* `ModuleTree.read?_render`: such a tree is read back from its saved text.
-/

namespace BuildAlignment

/-! ### Nesting -/

namespace Json

mutual

/-- How many lists and objects lie in each other, at the deepest place of a value. -/
def nesting : Json → Nat
  | null => 0
  | bool _ => 0
  | number _ => 0
  | text _ => 0
  | garbled => 0
  | list items => itemsNesting items + 1
  | object members => membersNesting members + 1

def itemsNesting : List Json → Nat
  | [] => 0
  | item :: items => max (nesting item) (itemsNesting items)

def membersNesting : List (String × Json) → Nat
  | [] => 0
  | (_, value) :: members => max (nesting value) (membersNesting members)

end

theorem membersNesting_append (first second : List (String × Json)) :
    membersNesting (first ++ second) = max (membersNesting first) (membersNesting second) := by
  induction first with
  | nil => simp [membersNesting]
  | cons member rest ih => simp only [List.cons_append, membersNesting, ih, Nat.max_assoc]

theorem nesting_le_membersNesting {members : List (String × Json)} {member : String × Json}
    (h : member ∈ members) : nesting member.2 ≤ membersNesting members := by
  induction members with
  | nil => cases h
  | cons first rest ih =>
    rw [membersNesting]
    rcases List.mem_cons.1 h with rfl | hmem
    · exact Nat.le_max_left _ _
    · exact Nat.le_trans (ih hmem) (Nat.le_max_right _ _)

end Json

namespace ModuleTree

/-- The maps of a tree are in key order, and its replacements are legible. -/
inductive Storable : ModuleTree → Prop
  | node {info : ModuleInfo} {children : List (String × ModuleTree)}
      (alignedOrder : Keyed.Ordered info.aligned)
      (legible : ∀ entry ∈ info.aligned, entry.2.Legible)
      (childOrder : Keyed.Ordered children)
      (below : ∀ entry ∈ children, Storable entry.2) : Storable (node info children)

/-! ### The JSON form -/

def optionalMember (name : String) (value : Option String) : List (String × Json) :=
  (value.map fun text => (name, .text text)).toList

/-- A member that is left out when its map is empty. -/
def mapMember (name : String) (members : List (String × Json)) : List (String × Json) :=
  if members.isEmpty then [] else [(name, .object members)]

/-- The members that hold the replacements. -/
def alignedMembers (aligned : Keyed Coordinate) : List (String × Json) :=
  aligned.map fun entry => (entry.1, .text entry.2.display)

theorem infoMembers_eq (info : ModuleInfo) :
    infoMembers info = [("name", .text info.name), ("group", .text info.group)]
      ++ optionalMember "version" info.version
      ++ optionalMember "originalVersion" info.formerVersion
      ++ mapMember "alignedDependencies" (alignedMembers info.aligned) := by
  obtain ⟨name, group, version, formerVersion, aligned⟩ := info
  cases version <;> cases formerVersion <;> cases aligned <;> rfl

theorem toJson_node (info : ModuleInfo) (children : List (String × ModuleTree)) :
    toJson (node info children)
      = .object (infoMembers info ++ mapMember "children" (childMembers children)) := by
  cases children with
  | nil => exact congrArg Json.object (List.append_nil _).symm
  | cons entry rest => rfl

theorem childMembers_eq_map (children : List (String × ModuleTree)) :
    childMembers children = children.map fun entry => (entry.1, toJson entry.2) := by
  induction children with
  | nil => rfl
  | cons entry rest ih => rw [childMembers, ih, List.map_cons]

theorem writable_optionalMember (name : String) (value : Option String) :
    ∀ member ∈ optionalMember name value, member.2.Writable := by
  intro member hmember
  obtain ⟨text, -, rfl⟩ := Option.map_eq_some_iff.1 (Option.mem_toList.1 hmember)
  exact .text text

theorem writable_mapMember (name : String) {members : List (String × Json)}
    (h : ∀ member ∈ members, member.2.Writable) :
    ∀ member ∈ mapMember name members, member.2.Writable := by
  intro member hmember
  rw [mapMember] at hmember
  split at hmember
  · cases hmember
  · rw [List.mem_singleton.1 hmember]
    exact .object h

theorem writable_infoMembers (info : ModuleInfo) :
    ∀ member ∈ infoMembers info, member.2.Writable := by
  have haligned : ∀ member ∈ alignedMembers info.aligned, member.2.Writable := by
    intro member hmember
    obtain ⟨entry, -, rfl⟩ := List.mem_map.1 hmember
    exact .text _
  intro member hmember
  simp only [infoMembers_eq, List.mem_append, List.mem_cons, List.not_mem_nil, or_false] at hmember
  rcases hmember with (((rfl | rfl) | hversion) | hformer) | hmap
  · exact .text _
  · exact .text _
  · exact writable_optionalMember _ _ member hversion
  · exact writable_optionalMember _ _ member hformer
  · exact writable_mapMember _ haligned member hmap

theorem writable_toJson : ∀ tree : ModuleTree, tree.toJson.Writable
  | node info children => by
    have hchildren : ∀ member ∈ childMembers children, member.2.Writable := by
      intro member hmember
      rw [childMembers_eq_map] at hmember
      obtain ⟨entry, hentry, rfl⟩ := List.mem_map.1 hmember
      exact writable_toJson entry.2
    rw [toJson_node]
    refine .object ?_
    intro member hmember
    rcases List.mem_append.1 hmember with hinfo | hmap
    · exact writable_infoMembers info member hinfo
    · exact writable_mapMember _ hchildren member hmap
  termination_by tree => sizeOf tree
  decreasing_by
    have hlist := List.sizeOf_lt_of_mem hentry
    obtain ⟨key, child⟩ := entry
    simp only [node.sizeOf_spec, Prod.mk.sizeOf_spec] at hlist ⊢
    omega

theorem read?_render_eq (tree : ModuleTree) :
    read? tree.render = ofJson? depthLimit tree.toJson := by
  rw [read?, render, Json.read?_printed tree.writable_toJson, Option.bind_some]

/-! ### Reading members -/

section Members

variable {depth : Nat} {draft : Draft}

theorem ofMembers?_append (depth : Nat) (draft : Draft) (first second : List (String × Json)) :
    ofMembers? depth draft (first ++ second)
      = (ofMembers? depth draft first).bind fun next => ofMembers? depth next second := by
  induction first generalizing draft with
  | nil => rfl
  | cons member rest ih =>
    obtain ⟨name, value⟩ := member
    rw [List.cons_append, ofMembers?, ofMembers?]
    cases ofMember? depth draft name value with
    | none => rfl
    | some next => exact ih next

theorem ofMembers?_singleton (depth : Nat) (draft : Draft) (name : String) (value : Json) :
    ofMembers? depth draft [(name, value)] = ofMember? depth draft name value := by
  rw [ofMembers?]
  cases ofMember? depth draft name value with
  | none => rfl
  | some next => rfl

/-- What is read of a module before its maps. -/
def draftOf (info : ModuleInfo) : Draft :=
  { name := some info.name
    group := some info.group
    version := info.version.map some
    formerVersion := info.formerVersion.map some }

theorem ofMembers?_version (hnew : draft.version = none) (version : Option String) :
    ofMembers? depth draft (optionalMember "version" version)
      = some { draft with version := version.map some } := by
  cases version with
  | none =>
    rw [Option.map_none, ← hnew]
    rfl
  | some version =>
    show ofMembers? depth draft [("version", .text version)] = _
    simp [ofMembers?_singleton, ofMember?, setOnce, optionalText?, hnew]

theorem ofMembers?_formerVersion (hnew : draft.formerVersion = none) (version : Option String) :
    ofMembers? depth draft (optionalMember "originalVersion" version)
      = some { draft with formerVersion := version.map some } := by
  cases version with
  | none =>
    rw [Option.map_none, ← hnew]
    rfl
  | some version =>
    show ofMembers? depth draft [("originalVersion", .text version)] = _
    simp [ofMembers?_singleton, ofMember?, setOnce, optionalText?, hnew]

/-- The members before the maps are read into a draft. -/
theorem ofMembers?_draftOf (info : ModuleInfo) :
    ofMembers? depth {} ([("name", .text info.name), ("group", .text info.group)]
      ++ optionalMember "version" info.version
      ++ optionalMember "originalVersion" info.formerVersion) = some (draftOf info) := by
  have hnames : ofMembers? depth {} [("name", .text info.name), ("group", .text info.group)]
      = some { name := some info.name, group := some info.group } := by
    simp [ofMembers?, ofMember?, setOnce, textOfJson?]
  rw [ofMembers?_append, ofMembers?_append, hnames, Option.bind_some, ofMembers?_version rfl,
    Option.bind_some, ofMembers?_formerVersion rfl]
  rfl

/-- Legible replacements in key order are read back. -/
theorem alignedOfMembers?_alignedMembers {aligned : Keyed Coordinate}
    (horder : Keyed.Ordered aligned) (hlegible : ∀ entry ∈ aligned, entry.2.Legible) :
    alignedOfMembers? (alignedMembers aligned) = some aligned := by
  have hall : (alignedMembers aligned).mapM (fun member =>
      (coordinateOfJson? member.2).map fun found => (member.1, found)) = some aligned := by
    clear horder
    induction aligned with
    | nil => rfl
    | cons entry rest ih =>
      have hentry : coordinateOfJson? (.text entry.2.display) = some entry.2 := by
        rw [coordinateOfJson?, Coordinate.parse_display (hlegible entry List.mem_cons_self)]
        rfl
      have hrest := ih fun other hother => hlegible other (List.mem_cons_of_mem _ hother)
      rw [alignedMembers] at hrest ⊢
      rw [List.map_cons, List.mapM_cons, hentry, hrest]
      rfl
  rw [alignedOfMembers?, hall, Option.map_some, Keyed.ofEntries_of_ordered horder]

/-- A map that is not empty has to be within the depth. -/
theorem one_lt_of_mapMember {name : String} {members : List (String × Json)}
    (hfilled : ¬ members.isEmpty)
    (hdepth : Json.membersNesting (mapMember name members) < depth) : 1 < depth := by
  rw [mapMember, if_neg hfilled, Json.membersNesting, Json.nesting] at hdepth
  omega

theorem ofMembers?_aligned (draft : Draft) (hnew : draft.aligned = none) {aligned : Keyed Coordinate}
    (horder : Keyed.Ordered aligned) (hlegible : ∀ entry ∈ aligned, entry.2.Legible)
    (hdepth : Json.membersNesting (mapMember "alignedDependencies" (alignedMembers aligned))
      < depth) :
    ∃ read, ofMembers? depth draft (mapMember "alignedDependencies" (alignedMembers aligned))
        = some { draft with aligned := read } ∧ read.getD [] = aligned := by
  by_cases hempty : (alignedMembers aligned).isEmpty
  · have hnil : aligned = [] := List.map_eq_nil_iff.1 (List.isEmpty_iff.1 hempty)
    refine ⟨none, ?_, hnil.symm⟩
    rw [mapMember, if_pos hempty, ← hnew]
    rfl
  · have hroom := Nat.not_le.2 (one_lt_of_mapMember hempty hdepth)
    refine ⟨some aligned, ?_, rfl⟩
    rw [mapMember, if_neg hempty, ofMembers?_singleton]
    simp [ofMember?, setOnce, alignedOfMembers?_alignedMembers horder hlegible, hnew, hroom]

/-- Subtrees in key order that are read back one by one are read back together. -/
theorem ofChildren?_childMembers {done children : Keyed ModuleTree}
    (horder : Keyed.Ordered (done ++ children))
    (hread : ∀ entry ∈ children, ofJson? depth (toJson entry.2) = some entry.2) :
    ofChildren? depth done (childMembers children) = some (done ++ children) := by
  induction children generalizing done with
  | nil => rw [childMembers, ofChildren?, List.append_nil]
  | cons entry rest ih =>
    obtain ⟨key, child⟩ := entry
    have hchild : ofJson? depth (toJson child) = some child := hread (key, child) List.mem_cons_self
    have hlast : ∀ known ∈ done, known.1 < key := fun known hknown =>
      (List.pairwise_append.1 horder).2.2 known hknown (key, child) List.mem_cons_self
    have hsplit : done ++ (key, child) :: rest = (done ++ [(key, child)]) ++ rest := by
      rw [List.append_assoc, List.singleton_append]
    rw [childMembers, ofChildren?, hchild]
    simp only [Keyed.insert_of_forall_lt hlast]
    rw [hsplit]
    exact ih (hsplit ▸ horder) fun other hother => hread other (List.mem_cons_of_mem _ hother)

theorem ofMembers?_children (draft : Draft) (hnew : draft.children = none)
    {children : Keyed ModuleTree}
    (horder : Keyed.Ordered children)
    (hread : ∀ entry ∈ children, ofJson? (depth - 1) (toJson entry.2) = some entry.2)
    (hdepth : Json.membersNesting (mapMember "children" (childMembers children)) < depth) :
    ∃ read, ofMembers? depth draft (mapMember "children" (childMembers children))
        = some { draft with children := read } ∧ read.getD [] = children := by
  by_cases hempty : (childMembers children).isEmpty
  · rw [childMembers_eq_map] at hempty
    have hnil : children = [] := List.map_eq_nil_iff.1 (List.isEmpty_iff.1 hempty)
    subst hnil
    refine ⟨none, ?_, rfl⟩
    rw [← hnew]
    rfl
  · have hroom := Nat.not_le.2 (one_lt_of_mapMember hempty hdepth)
    have hall : ofChildren? (depth - 1) [] (childMembers children) = some children :=
      ofChildren?_childMembers horder hread
    refine ⟨some children, ?_, rfl⟩
    rw [mapMember, if_neg hempty, ofMembers?_singleton]
    simp [ofMember?, setOnce, hall, hnew, hroom]

end Members

/-! ### Reading trees -/

/-- A child is nested less deep by the object of its module and by that of all children. -/
theorem nesting_child_lt {children : List (String × ModuleTree)} {entry : String × ModuleTree}
    (h : entry ∈ children) :
    entry.2.toJson.nesting + 1
      ≤ Json.membersNesting (mapMember "children" (childMembers children)) := by
  have hmember : (entry.1, toJson entry.2) ∈ childMembers children := by
    rw [childMembers_eq_map]
    exact List.mem_map_of_mem h
  have hnesting : entry.2.toJson.nesting ≤ Json.membersNesting (childMembers children) :=
    Json.nesting_le_membersNesting hmember
  have hfilled : ¬ (childMembers children).isEmpty := by
    intro hempty
    rw [List.isEmpty_iff.1 hempty] at hmember
    cases hmember
  simp only [mapMember, if_neg hfilled, Json.membersNesting, Json.nesting]
  omega

/-- A storable tree is read back from its JSON form at any depth beyond its nesting. -/
theorem Storable.ofJson?_toJson {tree : ModuleTree} (h : Storable tree) {depth : Nat}
    (hdepth : tree.toJson.nesting < depth) : ofJson? depth tree.toJson = some tree := by
  induction h generalizing depth with
  | @node info children alignedOrder legible childOrder below ih =>
    rw [toJson_node, infoMembers_eq, Json.nesting, Json.membersNesting_append,
      Json.membersNesting_append] at hdepth
    have hread : ∀ entry ∈ children,
        ofJson? (depth - 1 - 1) (toJson entry.2) = some entry.2 := by
      intro entry hentry
      have hchild := nesting_child_lt hentry
      exact ih entry hentry (by omega)
    obtain ⟨aligned, haligned, hreplacements⟩ := ofMembers?_aligned (draftOf info) rfl
      alignedOrder legible (show _ < depth - 1 by omega)
    obtain ⟨subtrees, hsubtrees, hchildren⟩ := ofMembers?_children
      { draftOf info with aligned } rfl childOrder hread (show _ < depth - 1 by omega)
    rw [toJson_node, ofJson?, if_neg (by omega), infoMembers_eq, ofMembers?_append,
      ofMembers?_append, ofMembers?_draftOf, Option.bind_some, haligned, Option.bind_some,
      hsubtrees, Option.bind_some, Draft.finish?]
    obtain ⟨name, group, version, formerVersion, replacements⟩ := info
    simp only at hreplacements
    subst hreplacements hchildren
    cases version <;> cases formerVersion <;> rfl

/-- A saved tree is read back as it was, whatever texts it holds. -/
theorem read?_render {tree : ModuleTree} (h : Storable tree) (hdepth : tree.toJson.nesting < 128) :
    read? tree.render = some tree :=
  (read?_render_eq tree).trans (h.ofJson?_toJson hdepth)

/-- A tree with quotes, control characters and characters beyond the first plane in its texts, with
empty texts beside absent ones, and with keys that no path could keep apart. -/
def quaint : ModuleTree :=
  .node
    { name := "a\"b\\c\n\x01\x7f😀", group := "", version := some "", formerVersion := none
      aligned := [("", ⟨"", "x", ""⟩), ("g:a:[1,2)\t", ⟨"g", "a", "1.4"⟩)] }
    [("", .single (.new "" "")),
      (": é", .node (.new "k" "g") [("\u2028", .single { ModuleInfo.new "l" "g" with
        formerVersion := some "1.0" })])]

theorem storable_quaint : Storable quaint := by
  have hleaf : ∀ info : ModuleInfo, info.aligned = [] → Storable (single info) := by
    intro info hempty
    refine .node ?_ ?_ List.Pairwise.nil (by simp)
    · rw [hempty]
      exact List.Pairwise.nil
    · simp [hempty]
  have hbare : Coordinate.Legible ⟨"", "x", ""⟩ :=
    ⟨⟨by decide, by decide, by decide, by decide⟩, by decide⟩
  have hfull : Coordinate.Legible ⟨"g", "a", "1.4"⟩ :=
    ⟨⟨by decide, by decide, by decide, by decide⟩, by decide⟩
  refine .node ?_ ?_ ?_ ?_
  · exact List.pairwise_pair.2 (by decide)
  · simpa using ⟨hbare, hfull⟩
  · exact List.pairwise_pair.2 (by decide)
  · simp only [List.mem_cons, List.not_mem_nil, or_false, forall_eq_or_imp, forall_eq]
    refine ⟨hleaf _ rfl, .node List.Pairwise.nil (by simp [ModuleInfo.new]) ?_ ?_⟩
    · exact List.pairwise_singleton _ _
    · simpa using hleaf _ rfl

/-- The quaint tree lies five deep, and comes back from its saved text. -/
theorem read?_render_quaint :
    quaint.Storable ∧ quaint.toJson.nesting = 5 ∧ read? quaint.render = some quaint :=
  ⟨storable_quaint, by decide, read?_render storable_quaint (by decide)⟩

end ModuleTree

end BuildAlignment
