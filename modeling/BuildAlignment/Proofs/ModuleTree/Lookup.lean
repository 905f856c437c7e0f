import BuildAlignment.Proofs.ModuleTree.Arranged

/-!
# What a query finds

A query is a path or a name. In a tree in key order both mean places of the tree, and a lookup ends at
the place that is meant.

* `ModuleTree.WellKeyed.keysOf_of_resolve`: a query leads along the keys of the path that it means.
* `ModuleTree.ChangedAt` says that one module was changed and nothing else,
  `ModuleTree.LooksUp` what a lookup has to do with a query.
* `ModuleTree.Arranged.looksUp`: in an arranged tree every query is looked up so.
-/

namespace BuildAlignment.ModuleTree

/-! ### The module that is meant -/

theorem keysOf_of_error {tree : ModuleTree} {query : String} {error : AlignmentError}
    (h : tree.resolve query = .error error) : tree.keysOf query = .error error := by
  simp only [keysOf, h]

/-- A query leads to the place of the path that it means. -/
theorem WellKeyed.keysOf_of_resolve {tree : ModuleTree} (h : tree.WellKeyed) {query path : String}
    (hresolve : tree.resolve query = .ok path) :
    ∃ keys found, ModulePath.ofKeys keys = path ∧ tree.locate? keys = some found ∧
      tree.keysOf query = .ok keys := by
  obtain ⟨keys, info, hkeys, hpath, -, hinfo⟩ := h.of_mem_paths (resolve_mem_paths h hresolve)
  obtain ⟨found, hfound, -⟩ := Option.map_eq_some_iff.1 hinfo
  refine ⟨keys, found, hpath, hfound, ?_⟩
  simp only [keysOf, hresolve, hkeys, Option.getD_some, hfound, Option.isSome_some, if_true]

/-- A lookup fails where its query means nothing, and nowhere else. -/
theorem WellKeyed.keysOf_eq_error_iff {tree : ModuleTree} (h : tree.WellKeyed) {query : String}
    {error : AlignmentError} :
    tree.keysOf query = .error error ↔ tree.resolve query = .error error := by
  refine ⟨fun hkeys => ?_, keysOf_of_error⟩
  cases hresolve : tree.resolve query with
  | error other =>
    rw [keysOf_of_error hresolve] at hkeys
    cases hkeys
    rfl
  | ok path =>
    obtain ⟨keys, -, -, -, hok⟩ := h.keysOf_of_resolve hresolve
    rw [hok] at hkeys
    cases hkeys

theorem WellKeyed.locate?_of_keysOf {tree : ModuleTree} (h : tree.WellKeyed) {query : String}
    {keys : List String} (hkeys : tree.keysOf query = .ok keys) :
    ∃ found, tree.locate? keys = some found := by
  cases hresolve : tree.resolve query with
  | error other =>
    rw [keysOf_of_error hresolve] at hkeys
    cases hkeys
  | ok path =>
    obtain ⟨others, found, -, hfound, hok⟩ := h.keysOf_of_resolve hresolve
    rw [hkeys] at hok
    cases hok
    exact ⟨found, hfound⟩

/-- A lookup and a change go the same way. -/
theorem WellKeyed.find_eq_error_iff {tree : ModuleTree} (h : tree.WellKeyed) {query : String}
    {error : AlignmentError} :
    tree.find query = .error error ↔ tree.keysOf query = .error error := by
  cases hkeys : tree.keysOf query with
  | error other => simp [find, hkeys]
  | ok keys =>
    obtain ⟨found, hfound⟩ := h.locate?_of_keysOf hkeys
    simp [find, hkeys, hfound]

theorem modify_eq_error_iff {tree : ModuleTree} {query : String} {error : AlignmentError}
    {change : ModuleInfo → ModuleInfo} :
    tree.modify query change = .error error ↔ tree.keysOf query = .error error := by
  cases hkeys : tree.keysOf query <;> simp [modify, hkeys, Except.map]

/-- A change that may be refused is made to the module that a lookup finds. -/
theorem WellKeyed.change_eq_bind {tree : ModuleTree} (h : tree.WellKeyed) (query : String)
    (step : ModuleInfo → Except AlignmentError ModuleInfo) :
    tree.change query step = (tree.find query).bind fun found =>
      (step found.info).bind fun info => tree.modify query fun _ => info := by
  cases hkeys : tree.keysOf query with
  | error other => simp [change, find, hkeys, Except.bind]
  | ok keys =>
    obtain ⟨found, hfound⟩ := h.locate?_of_keysOf hkeys
    cases hstep : step found.info <;>
      simp [change, find, modify, hkeys, hfound, hstep, Except.bind, Except.map]

/-! ### One module changed -/

/-- A tree in which the module at some keys was changed, and nothing else. -/
structure ChangedAt (tree : ModuleTree) (keys : List String) (change : ModuleInfo → ModuleInfo)
    (next : ModuleTree) : Prop where
  /-- The modules are the same and at the same places, but for what is kept for the changed one. -/
  nodes : next.nodes = tree.nodes.map fun entry =>
    if entry.1 = keys then (entry.1, change entry.2) else entry
  paths : next.paths = tree.paths
  names : next.nodes.map (fun entry => entry.2.name) = tree.nodes.map fun entry => entry.2.name
  /-- Every query means what it meant before. -/
  resolve : ∀ query, next.resolve query = tree.resolve query

/-- A change that keeps the name changes one module. -/
theorem changedAt_updateAt (tree : ModuleTree) (keys : List String)
    {change : ModuleInfo → ModuleInfo} (hname : ∀ info, (change info).name = info.name) :
    tree.ChangedAt keys change (tree.updateAt change keys) := by
  have houtline := SameOutline.updateAt hname keys tree
  refine ⟨nodes_updateAt change keys tree, houtline.paths_eq, ?_, resolve_congr houtline⟩
  have hnames := congrArg (List.map Prod.snd) houtline.names
  rw [List.map_map, List.map_map] at hnames
  exact hnames

/-! ### Lookups -/

/-- What a lookup has to do with a query, which counts without the blank characters at its ends. -/
structure LooksUp (tree : ModuleTree) (query : String) : Prop where
  /-- A text that begins with a colon means itself, if it is the path of a module. -/
  byPath : (Text.trim query).toList.head? = some ':' →
    (Text.trim query ∈ tree.paths → tree.resolve query = .ok (Text.trim query)) ∧
    (Text.trim query ∉ tree.paths → tree.resolve query = .error (tree.notFound (Text.trim query)))
  /-- Any other text is a name. It means the one module that has it. -/
  byName : (Text.trim query).toList.head? ≠ some ':' →
    ∃ named, tree.Lists (fun found => found.info.name = Text.trim query) named ∧
      (named = [] → tree.resolve query = .error (tree.notFound (Text.trim query))) ∧
      (∀ path, named = [path] → tree.resolve query = .ok path) ∧
      (2 ≤ named.length → tree.resolve query = .error (.ambiguousModule (Text.trim query) named))
  /-- A lookup and a change fail where the query means nothing, with the same error. -/
  failed : ∀ error, (tree.find query = .error error ↔ tree.resolve query = .error error) ∧
    ∀ change, tree.modify query change = .error error ↔ tree.resolve query = .error error
  /-- Otherwise they reach the one module with the path that is meant. -/
  reached : ∀ path, tree.resolve query = .ok path →
    ∃ keys found, tree.Leads keys found ∧ ModulePath.ofKeys keys = path ∧
      (∀ others other, tree.Leads others other → ModulePath.ofKeys others = path →
        others = keys ∧ other = found) ∧
      tree.find query = .ok found ∧
      ∀ change : ModuleInfo → ModuleInfo, (∀ info, (change info).name = info.name) →
        ∃ next, tree.modify query change = .ok next ∧ tree.ChangedAt keys change next
  /-- A change that may be refused is asked about the module that a lookup finds, and made there. -/
  refused : ∀ step : ModuleInfo → Except AlignmentError ModuleInfo,
    tree.change query step = (tree.find query).bind fun found =>
      (step found.info).bind fun info => tree.modify query fun _ => info

theorem resolve_of_path {tree : ModuleTree} (h : tree.WellKeyed) {query : String}
    (hhead : (Text.trim query).toList.head? = some ':') :
    (Text.trim query ∈ tree.paths → tree.resolve query = .ok (Text.trim query)) ∧
    (Text.trim query ∉ tree.paths →
      tree.resolve query = .error (tree.notFound (Text.trim query))) := by
  have hpath := ModulePath.isSome_segments?_iff.2 hhead
  rw [← h.isSome_locatePath?_iff]
  constructor
  · intro hlocated
    simp only [resolve, hpath, hlocated, if_true]
  · intro hlost
    simp only [resolve, hpath, if_true, if_neg hlost]

theorem resolve_of_name {tree : ModuleTree} {query : String}
    (hhead : (Text.trim query).toList.head? ≠ some ':') :
    (tree.pathsNamed (Text.trim query) = [] →
      tree.resolve query = .error (tree.notFound (Text.trim query))) ∧
    (∀ path, tree.pathsNamed (Text.trim query) = [path] → tree.resolve query = .ok path) ∧
    (2 ≤ (tree.pathsNamed (Text.trim query)).length → tree.resolve query =
      .error (.ambiguousModule (Text.trim query) (tree.pathsNamed (Text.trim query)))) := by
  have hname : ¬ (ModulePath.segments? (Text.trim query)).isSome = true :=
    fun hpath => hhead (ModulePath.isSome_segments?_iff.1 hpath)
  simp only [resolve, if_neg hname]
  cases hnamed : tree.pathsNamed (Text.trim query) with
  | nil => simp
  | cons first rest =>
    cases rest with
    | nil => simp
    | cons second others => simp

/-- In an arranged tree, as every build makes one, a query is looked up as it should be: paths and
names mean the places of the tree that have them, a lookup ends at the place that is meant, and a
change of it changes nothing else. -/
theorem Arranged.looksUp {tree : ModuleTree} (h : tree.Arranged) (query : String) :
    tree.LooksUp query := by
  refine ⟨resolve_of_path h.wellKeyed, ?_, ?_, ?_, h.wellKeyed.change_eq_bind query⟩
  · intro hhead
    exact ⟨_, h.lists_pathsNamed _, resolve_of_name hhead⟩
  · intro error
    rw [h.wellKeyed.find_eq_error_iff, h.wellKeyed.keysOf_eq_error_iff]
    refine ⟨Iff.rfl, fun change => ?_⟩
    rw [modify_eq_error_iff, h.wellKeyed.keysOf_eq_error_iff]
  · intro path hresolve
    obtain ⟨keys, found, hpath, hfound, hkeys⟩ := h.wellKeyed.keysOf_of_resolve hresolve
    have hleads := leads_of_locate? hfound
    refine ⟨keys, found, hleads, hpath, ?_, by simp only [find, hkeys, hfound], ?_⟩
    · intro others other hother hsame
      exact h.wellKeyed.leads_inj hother hleads (hsame.trans hpath.symm)
    · intro change hname
      exact ⟨_, by simp only [modify, hkeys]; rfl, changedAt_updateAt tree keys hname⟩

def namesakes : ModuleTree :=
  node (.new "root" "g") [("a", single (.new "inner" "g")),
    ("b", node (.new "b" "g") [("inner", single (.new "inner" "g"))])]

theorem arranged_namesakes : namesakes.Arranged := by
  have hfit : ∀ key ∈ ["a", "b", "inner"], ModulePath.IsKey key := by
    intro key hkey
    simp only [List.mem_cons, List.not_mem_nil, or_false] at hkey
    rcases hkey with rfl | rfl | rfl <;> exact ⟨by decide, by decide⟩
  refine ⟨.node (by decide) ?_ ?_, .node ?_ ?_⟩
  · simpa using ⟨hfit "a" (by simp), hfit "b" (by simp)⟩
  · simp only [List.mem_cons, List.not_mem_nil, or_false, forall_eq_or_imp, forall_eq]
    exact ⟨.single _, .node (by decide) (by simpa using hfit "inner" (by simp))
      (by simp [WellKeyed.single])⟩
  · exact List.pairwise_pair.2 (by decide)
  · simp only [List.mem_cons, List.not_mem_nil, or_false, forall_eq_or_imp, forall_eq]
    exact ⟨.single _, .node (List.pairwise_singleton _ _) (by simp [InKeyOrder.single])⟩

/-- The name of two modules, with blank characters around it, and the path of one of them. -/
theorem looksUp_namesakes :
    namesakes.Arranged ∧ namesakes.LooksUp " inner " ∧ namesakes.LooksUp ":b:inner\t" ∧
      namesakes.resolve " inner " = .error (.ambiguousModule "inner" [":a", ":b:inner"]) ∧
      namesakes.resolve ":b:inner\t" = .ok ":b:inner" :=
  ⟨arranged_namesakes, arranged_namesakes.looksUp " inner ",
    arranged_namesakes.looksUp ":b:inner\t", rfl, rfl⟩

end BuildAlignment.ModuleTree
