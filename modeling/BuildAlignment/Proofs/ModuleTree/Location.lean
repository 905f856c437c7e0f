import BuildAlignment.ModuleTree.Lookup
import BuildAlignment.Proofs.Keyed

/-!
# Modules and the keys that lead to them

The list of all modules, the walk along keys and a change at the end of keys speak about the same
places of a tree.

* `ModuleTree.infoAt?` is what is kept for the module at the end of some keys.
* `ModuleTree.mem_nodes_of_locate?`: a module that can be walked to is listed.
* `ModuleTree.nodes_updateAt` and `ModuleTree.infoAt?_updateAt`: a change reaches the module at
  the end of its keys and no other.
* `ModuleTree.SameOutline` holds of trees with the same keys and names. By
  `ModuleTree.resolve_congr` a query means the same in both.
* `ModuleTree.find_eq` and `ModuleTree.change_eq`: a path that means itself leads to the module at
  its keys.
-/

namespace BuildAlignment.ModuleTree

/-! ### Listed modules -/

/-- What is kept for the module at the end of some keys. -/
def infoAt? (keys : List String) (tree : ModuleTree) : Option ModuleInfo :=
  (tree.locate? keys).map info

theorem childNodes_eq_flatMap (children : List (String × ModuleTree)) :
    childNodes children = children.flatMap fun entry =>
      entry.2.nodes.map fun below => (entry.1 :: below.1, below.2) := by
  induction children with
  | nil => rfl
  | cons entry rest ih => rw [childNodes, ih, List.flatMap_cons]

/-- A listed module below the top one lies in the subtree of a child. -/
theorem mem_childNodes {children : List (String × ModuleTree)} {keys : List String}
    {found : ModuleInfo} :
    (keys, found) ∈ childNodes children ↔
      ∃ key child rest, (key, child) ∈ children ∧ (rest, found) ∈ child.nodes ∧
        keys = key :: rest := by
  rw [childNodes_eq_flatMap, List.mem_flatMap]
  constructor
  · intro hfound
    obtain ⟨⟨key, child⟩, hchild, hmem⟩ := hfound
    obtain ⟨⟨rest, info⟩, hbelow, heq⟩ := List.mem_map.1 hmem
    cases heq
    exact ⟨key, child, rest, hchild, hbelow, rfl⟩
  · intro hfound
    obtain ⟨key, child, rest, hchild, hbelow, rfl⟩ := hfound
    exact ⟨(key, child), hchild, List.mem_map.2 ⟨(rest, found), hbelow, rfl⟩⟩

theorem nodes_node (info : ModuleInfo) (children : List (String × ModuleTree)) :
    (node info children).nodes = ([], info) :: childNodes children := rfl

/-- A module that can be walked to is listed under the same keys. -/
theorem mem_nodes_of_locate? {keys : List String} {tree found : ModuleTree}
    (h : tree.locate? keys = some found) : (keys, found.info) ∈ tree.nodes := by
  induction keys generalizing tree with
  | nil =>
    cases h
    cases found with
    | node info children => exact List.mem_cons_self
  | cons key rest ih =>
    cases tree with
    | node info children =>
      rw [locate?] at h
      split at h
      · rename_i child hchild
        rw [nodes_node]
        exact List.mem_cons_of_mem _
          (mem_childNodes.2 ⟨key, child, rest, Keyed.mem_of_find? hchild, ih h, rfl⟩)
      · cases h

theorem mem_paths_of_locate? {keys : List String} {tree : ModuleTree}
    (h : (tree.locate? keys).isSome) : ModulePath.ofKeys keys ∈ tree.paths := by
  obtain ⟨found, hfound⟩ := Option.isSome_iff_exists.1 h
  exact List.mem_map.2 ⟨(keys, found.info), mem_nodes_of_locate? hfound, rfl⟩

theorem locate?_append (first second : List String) (tree : ModuleTree) :
    tree.locate? (first ++ second) = (tree.locate? first).bind (locate? second) := by
  induction first generalizing tree with
  | nil => rfl
  | cons key rest ih =>
    cases tree with
    | node info children =>
      rw [List.cons_append, locate?, locate?]
      cases Keyed.find? key children with
      | none => rfl
      | some child => exact ih child

theorem locate?_concat {keys : List String} {tree parent : ModuleTree}
    (h : tree.locate? keys = some parent) (key : String) :
    tree.locate? (keys ++ [key]) = Keyed.find? key parent.children := by
  rw [locate?_append, h, Option.bind_some]
  cases parent with
  | node info below =>
    rw [locate?, children]
    cases Keyed.find? key below <;> rfl

/-! ### Changes -/

/-- A change shows in the list of modules at its keys and nowhere else. -/
theorem nodes_updateAt (change : ModuleInfo → ModuleInfo) (keys : List String)
    (tree : ModuleTree) :
    (tree.updateAt change keys).nodes = tree.nodes.map fun entry =>
      if entry.1 = keys then (entry.1, change entry.2) else entry := by
  induction keys generalizing tree with
  | nil =>
    cases tree with
    | node info children =>
      rw [updateAt, nodes_node, nodes_node, List.map_cons, if_pos rfl]
      congr 1
      symm
      calc (childNodes children).map (fun entry =>
            if entry.1 = [] then (entry.1, change entry.2) else entry)
          = (childNodes children).map id := by
            apply List.map_congr_left
            intro entry hentry
            obtain ⟨key, child, rest, -, -, hkeys⟩ := mem_childNodes.1 hentry
            rw [hkeys, if_neg (by simp)]
            rfl
        _ = childNodes children := List.map_id _
  | cons key keys ih =>
    cases tree with
    | node info children =>
      rw [updateAt, nodes_node, nodes_node, List.map_cons, if_neg (by simp)]
      congr 1
      rw [childNodes_eq_flatMap, childNodes_eq_flatMap, List.map_flatMap, List.flatMap_map]
      congr 1
      funext entry
      by_cases hkey : entry.1 = key
      · simp only [if_pos hkey, ih, List.map_map]
        apply List.map_congr_left
        intro below _
        by_cases hbelow : below.1 = keys <;> simp [hkey, hbelow]
      · rw [if_neg hkey, List.map_map]
        apply List.map_congr_left
        intro below _
        simp [hkey]

theorem infoAt?_updateAt (change : ModuleInfo → ModuleInfo) (target keys : List String)
    (tree : ModuleTree) :
    (tree.updateAt change target).infoAt? keys
      = if keys = target then (tree.infoAt? keys).map change else tree.infoAt? keys := by
  induction target generalizing keys tree with
  | nil =>
    cases tree with
    | node info children =>
      cases keys with
      | nil => rfl
      | cons key keys => rw [if_neg (by simp)]; rfl
  | cons step steps ih =>
    cases tree with
    | node info children =>
      cases keys with
      | nil => rw [if_neg (by simp)]; rfl
      | cons key keys =>
        rw [updateAt, infoAt?, infoAt?, locate?, locate?, Keyed.find?_map_at]
        by_cases hkey : key = step
        · subst hkey
          rw [if_pos rfl]
          cases Keyed.find? key children with
          | none => simp
          | some child =>
            have hchild := ih keys child
            simp only [infoAt?] at hchild
            simpa using hchild
        · rw [if_neg hkey, if_neg (by simp [hkey])]

/-! ### Trees of one outline -/

/-- The same keys lead to modules of the same names. -/
structure SameOutline (first second : ModuleTree) : Prop where
  names : first.nodes.map (fun entry => (entry.1, entry.2.name))
    = second.nodes.map fun entry => (entry.1, entry.2.name)
  located : ∀ keys, (first.infoAt? keys).map ModuleInfo.name
    = (second.infoAt? keys).map ModuleInfo.name

namespace SameOutline

variable {first second third : ModuleTree}

theorem refl (tree : ModuleTree) : SameOutline tree tree := ⟨rfl, fun _ => rfl⟩

theorem trans (h : SameOutline first second) (h' : SameOutline second third) :
    SameOutline first third :=
  ⟨h.names.trans h'.names, fun keys => (h.located keys).trans (h'.located keys)⟩

/-- A change that keeps the name keeps the outline. -/
theorem updateAt {change : ModuleInfo → ModuleInfo} (hname : ∀ info, (change info).name = info.name)
    (keys : List String) (tree : ModuleTree) : SameOutline (tree.updateAt change keys) tree := by
  constructor
  · rw [nodes_updateAt, List.map_map]
    apply List.map_congr_left
    intro entry _
    by_cases hkeys : entry.1 = keys <;> simp [hkeys, hname]
  · intro other
    rw [infoAt?_updateAt]
    split
    · rw [Option.map_map]
      congr 1
      funext info
      exact hname info
    · rfl

theorem paths_eq (h : SameOutline first second) : first.paths = second.paths := by
  have hkeys := congrArg (List.map fun entry => ModulePath.ofKeys entry.1) h.names
  rw [paths, paths]
  simpa only [List.map_map, Function.comp_def] using hkeys

theorem locatePath?_name (h : SameOutline first second) (path : String) :
    (first.locatePath? path).map (fun found => found.info.name)
      = (second.locatePath? path).map fun found => found.info.name := by
  rw [locatePath?, locatePath?]
  cases ModulePath.segments? path with
  | none => rfl
  | some keys => simpa only [infoAt?, Option.map_map, Function.comp_def] using h.located keys

theorem namesAtPaths_eq (h : SameOutline first second) :
    first.namesAtPaths = second.namesAtPaths := by
  rw [namesAtPaths, namesAtPaths, h.paths_eq]
  congr 1
  funext path
  exact h.locatePath?_name path

theorem pathsNamed_eq (h : SameOutline first second) (name : String) :
    first.pathsNamed name = second.pathsNamed name := by
  have hnames := congrArg (List.filterMap fun (entry : List String × String) =>
    if entry.2 = name then some (ModulePath.ofKeys entry.1) else none) h.names
  have hside : ∀ tree : ModuleTree, tree.pathsNamed name
      = (tree.nodes.map fun entry => (entry.1, entry.2.name)).filterMap fun entry =>
          if entry.2 = name then some (ModulePath.ofKeys entry.1) else none := by
    intro tree
    rw [pathsNamed, List.filterMap_map]
    induction tree.nodes with
    | nil => rfl
    | cons entry rest ih => by_cases hname : entry.2.name = name <;> simp [hname, ih]
  rw [hside, hside]
  exact hnames

theorem notFound_eq (h : SameOutline first second) (query : String) :
    first.notFound query = second.notFound query := by
  rw [notFound, notFound, suggestions, suggestions, knownNames, knownNames, h.paths_eq,
    h.namesAtPaths_eq]

end SameOutline

theorem resolve_congr {first second : ModuleTree} (h : SameOutline first second) (query : String) :
    first.resolve query = second.resolve query := by
  have hlocated : (first.locatePath? (Text.trim query)).isSome
      = (second.locatePath? (Text.trim query)).isSome := by
    have hname := congrArg Option.isSome (h.locatePath?_name (Text.trim query))
    simpa only [Option.isSome_map] using hname
  rw [resolve, resolve]
  simp only [hlocated, h.notFound_eq, h.pathsNamed_eq]

/-- A query leads to the same keys in trees of one outline. -/
theorem SameOutline.keysOf_eq {first second : ModuleTree} (h : SameOutline first second)
    (query : String) : first.keysOf query = second.keysOf query := by
  have hlocated : ∀ keys, (first.locate? keys).isSome = (second.locate? keys).isSome := by
    intro keys
    have hsome := congrArg Option.isSome (h.located keys)
    simpa only [infoAt?, Option.isSome_map] using hsome
  rw [keysOf, keysOf, resolve_congr h, h.notFound_eq]
  simp only [hlocated]

/-- A path that leads somewhere means itself, unless there are blank characters around it. -/
theorem resolve_of_locatePath? {tree : ModuleTree} {path : String}
    (hlocated : (tree.locatePath? path).isSome = true) (htrim : Text.trim path = path) :
    tree.resolve path = .ok path := by
  have hkeys : (ModulePath.segments? path).isSome = true := by
    rw [locatePath?] at hlocated
    cases hread : ModulePath.segments? path with
    | none =>
      rw [hread] at hlocated
      cases hlocated
    | some keys => rfl
  simp only [resolve, htrim, hkeys, hlocated, if_true]

theorem paths_self_of_locatePath? {tree : ModuleTree} (h : ∀ path ∈ tree.paths,
      (tree.locatePath? path).isSome = true ∧ Text.trim path = path) :
    ∀ path ∈ tree.paths, tree.resolve path = .ok path := by
  intro path hpath
  obtain ⟨hlocated, htrim⟩ := h path hpath
  exact resolve_of_locatePath? hlocated htrim

/-! ### Changing a module that is named by its path -/

/-- Every listed module is found under its keys. -/
def Addressed (tree : ModuleTree) : Prop :=
  ∀ entry ∈ tree.nodes, tree.infoAt? entry.1 = some entry.2

theorem Addressed.updateAt {tree : ModuleTree} (h : Addressed tree)
    (change : ModuleInfo → ModuleInfo) (keys : List String) :
    Addressed (tree.updateAt change keys) := by
  intro entry hentry
  rw [nodes_updateAt] at hentry
  obtain ⟨old, hold, rfl⟩ := List.mem_map.1 hentry
  have hfound := h old hold
  by_cases hkeys : old.1 = keys
  · rw [if_pos hkeys, infoAt?_updateAt, if_pos hkeys, hfound]
    rfl
  · rw [if_neg hkeys, infoAt?_updateAt, if_neg hkeys, hfound]

/-- Setting what is kept for a module keeps the outline, if the name stays. -/
theorem SameOutline.updateAt_const {tree : ModuleTree} (h : Addressed tree) {keys : List String}
    {old info : ModuleInfo} (hold : tree.infoAt? keys = some old) (hname : info.name = old.name) :
    SameOutline (tree.updateAt (fun _ => info) keys) tree := by
  constructor
  · rw [nodes_updateAt, List.map_map]
    apply List.map_congr_left
    intro entry hentry
    by_cases hkeys : entry.1 = keys
    · have hfound := h entry hentry
      rw [hkeys, hold] at hfound
      cases hfound
      simp [hkeys, hname]
    · simp [hkeys]
  · intro other
    rw [infoAt?_updateAt]
    by_cases hkeys : other = keys
    · rw [if_pos hkeys, hkeys, hold]
      exact congrArg some hname
    · rw [if_neg hkeys]

theorem keysOf_eq {tree : ModuleTree} {path : String} {keys : List String} {old : ModuleInfo}
    (hself : tree.resolve path = .ok path) (hkeys : ModulePath.segments? path = some keys)
    (hold : tree.infoAt? keys = some old) : tree.keysOf path = .ok keys := by
  obtain ⟨found, hfound, -⟩ := Option.map_eq_some_iff.1 hold
  simp [keysOf, hself, hkeys, hfound]

theorem find_eq {tree : ModuleTree} {path : String} {keys : List String} {old : ModuleInfo}
    (hself : tree.resolve path = .ok path) (hkeys : ModulePath.segments? path = some keys)
    (hold : tree.infoAt? keys = some old) : ∃ found, tree.find path = .ok found ∧
      found.info = old := by
  obtain ⟨found, hfound, hinfo⟩ := Option.map_eq_some_iff.1 hold
  refine ⟨found, ?_, hinfo⟩
  rw [find, keysOf_eq hself hkeys hold]
  simp only [hfound]

/-- What a change does that is not refused. -/
theorem of_change_eq_ok {tree next : ModuleTree} {query : String}
    {step : ModuleInfo → Except AlignmentError ModuleInfo} (h : tree.change query step = .ok next) :
    ∃ keys old info, tree.keysOf query = .ok keys ∧ tree.infoAt? keys = some old ∧
      step old = .ok info ∧ next = tree.updateAt (fun _ => info) keys := by
  rw [change] at h
  split at h
  · cases h
  · rename_i keys hkeys
    split at h
    · cases h
    · rename_i found hfound
      cases hinfo : step found.info with
      | error error =>
        rw [hinfo] at h
        cases h
      | ok info =>
        rw [hinfo] at h
        cases h
        exact ⟨keys, found.info, info, hkeys, by rw [infoAt?, hfound]; rfl, hinfo, rfl⟩

/-- A change of a module whose path means itself is made there. -/
theorem change_eq {tree : ModuleTree} {path : String} {keys : List String} {old : ModuleInfo}
    (hself : tree.resolve path = .ok path) (hkeys : ModulePath.segments? path = some keys)
    (hold : tree.infoAt? keys = some old)
    (step : ModuleInfo → Except AlignmentError ModuleInfo) :
    tree.change path step = (step old).map fun info => tree.updateAt (fun _ => info) keys := by
  obtain ⟨found, hfound, hinfo⟩ := Option.map_eq_some_iff.1 hold
  rw [change, keysOf_eq hself hkeys hold]
  simp only [hfound, hinfo]

end BuildAlignment.ModuleTree
