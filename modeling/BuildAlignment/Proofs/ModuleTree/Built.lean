import BuildAlignment.Proofs.ModulePath
import BuildAlignment.Proofs.ModuleTree.Location

/-!
# Trees that a build makes

Before an alignment the tree of a build is made from a root, module by module.

* `ModuleTree.Built` holds of the trees that are made this way.
* `ModuleTree.WellKeyed` holds of trees whose keys are fit for paths and distinct among siblings.
  By `ModuleTree.Built.wellKeyed` every built tree is such a tree.
* `ModuleTree.nodup_paths`: the modules of such a tree have distinct paths.
* `ModuleTree.WellKeyed.isSome_locatePath?_iff`: a walk along a path ends at a module exactly if the
  path is listed, and by `ModuleTree.resolve_mem_paths` a query means one of these paths or nothing.
* `ModuleTree.nodes_add_perm`: an added module is listed with the others, under the keys of its path.
* `ModuleTree.Built.info_eq_new`: a built tree knows nothing but names and groups.
-/

namespace BuildAlignment.ModuleTree

open ModulePath (IsKey)

/-- A tree as a build makes it, before it is aligned. -/
inductive Built : ModuleTree → Prop
  | root (name group : String) : Built (single (.new name group))
  | add {tree next : ModuleTree} {path name group : String} (built : Built tree)
      (added : tree.add path (.new name group) = .ok next) : Built next

/-- Every key is fit for a path, and no two siblings share a key. -/
inductive WellKeyed : ModuleTree → Prop
  | node {info : ModuleInfo} {children : List (String × ModuleTree)}
      (distinct : (children.map Prod.fst).Nodup)
      (fit : ∀ entry ∈ children, IsKey entry.1)
      (below : ∀ entry ∈ children, WellKeyed entry.2) : WellKeyed (node info children)

theorem WellKeyed.single (info : ModuleInfo) : WellKeyed (single info) :=
  .node List.nodup_nil (by simp) (by simp)

/-! ### Adding a module -/

/-- What an accepted path says about the tree, and what it makes of it. -/
theorem add_eq_ok {path : String} {info : ModuleInfo} {tree next : ModuleTree}
    (h : tree.add path info = .ok next) :
    ∃ parents last parent, ModulePath.segments? path = some (parents ++ [last]) ∧
      IsKey last ∧ tree.locate? parents = some parent ∧
      Keyed.find? last parent.children = none ∧
      next = insertBelow last (ModuleTree.single info) parents tree := by
  rw [add] at h
  split at h
  · cases h
  · rename_i keys hkeys
    split at h
    · cases h
    · rename_i last hlast
      obtain ⟨parents, rfl⟩ := List.getLast?_eq_some_iff.1 hlast
      split at h
      · cases h
      · rename_i hempty
        split at h
        · cases h
        · rename_i parent hparent
          split at h
          · cases h
          · rename_i hfree
            rw [List.dropLast_concat] at hparent h
            cases h
            have hmem : last ∈ parents ++ [last] := List.mem_append_right _ List.mem_cons_self
            refine ⟨parents, last, parent, hkeys, ⟨?_, ?_⟩, hparent, by simpa using hfree, rfl⟩
            · rintro rfl
              exact hempty (by simp)
            · exact ModulePath.colon_not_mem_of_segments? hkeys hmem

/-- A path is accepted if its keys lead to a module that has none at the last of them. -/
theorem add_of_locate? {path : String} {info : ModuleInfo} {tree parent : ModuleTree}
    {parents : List String} {last : String}
    (hkeys : ModulePath.segments? path = some (parents ++ [last]))
    (hsay : ∀ key ∈ parents ++ [last], key ≠ "") (hparent : tree.locate? parents = some parent)
    (hfree : Keyed.find? last parent.children = none) :
    tree.add path info = .ok (insertBelow last (single info) parents tree) := by
  have hempty : (parents ++ [last]).contains "" = false := by
    rw [List.contains_eq_mem, decide_eq_false_iff_not]
    exact fun hmem => hsay "" hmem rfl
  simp only [add, hkeys, List.getLast?_concat, hempty, List.dropLast_concat, hparent, hfree,
    Option.isSome_none, Bool.false_eq_true, if_false]

/-- A subtree of distinct keys put to a free place keeps the keys distinct. -/
theorem WellKeyed.insertBelow {key : String} {child : ModuleTree} (hkey : IsKey key)
    (hchild : WellKeyed child) {steps : List String} {tree parent : ModuleTree}
    (htree : WellKeyed tree) (hparent : tree.locate? steps = some parent)
    (hfree : Keyed.find? key parent.children = none) :
    WellKeyed (insertBelow key child steps tree) := by
  induction steps generalizing tree with
  | nil =>
    cases hparent
    cases htree with
    | @node info children distinct fit below =>
      have hperm : (Keyed.insert key child children).Perm ((key, child) :: children) :=
        Keyed.insert_perm child hfree
      have hmem : ∀ {entry : String × ModuleTree},
          entry ∈ Keyed.insert key child children ↔ entry = (key, child) ∨ entry ∈ children :=
        fun {entry} => hperm.mem_iff.trans List.mem_cons
      rw [ModuleTree.insertBelow]
      refine .node ?_ ?_ ?_
      · rw [(hperm.map Prod.fst).nodup_iff, List.map_cons]
        exact List.nodup_cons.2 ⟨Keyed.find?_eq_none_iff.1 hfree, distinct⟩
      · intro entry hentry
        rcases hmem.1 hentry with rfl | hold
        · exact hkey
        · exact fit entry hold
      · intro entry hentry
        rcases hmem.1 hentry with rfl | hold
        · exact hchild
        · exact below entry hold
  | cons step steps ih =>
    cases htree with
    | @node info children distinct fit below =>
      rw [ModuleTree.insertBelow]
      have hkeys := Keyed.fst_map_at step (ModuleTree.insertBelow key child steps) children
      refine .node (hkeys ▸ distinct) ?_ (Keyed.forall_map_at step _ below ?_)
      · rw [← List.forall_mem_map (P := IsKey), hkeys, List.forall_mem_map]
        exact fit
      · intro old hold hbelow
        rw [locate?, Keyed.find?_of_mem distinct hold] at hparent
        exact ih hbelow hparent

/-- The keys of a built tree are fit for paths and distinct among siblings. -/
theorem Built.wellKeyed {tree : ModuleTree} (h : Built tree) : WellKeyed tree := by
  induction h with
  | root name group => exact WellKeyed.single _
  | add _ added ih =>
    obtain ⟨parents, last, parent, -, hlast, hparent, hfree, rfl⟩ := add_eq_ok added
    exact WellKeyed.insertBelow hlast (WellKeyed.single _) ih hparent hfree

/-! ### Distinct paths -/

theorem WellKeyed.of_locate? {keys : List String} {tree found : ModuleTree} (h : WellKeyed tree)
    (hfound : tree.locate? keys = some found) : ∀ key ∈ keys, IsKey key := by
  induction keys generalizing tree with
  | nil => simp
  | cons key keys ih =>
    cases h with
    | @node info children distinct fit below =>
      rw [locate?] at hfound
      split at hfound
      · rename_i child hchild
        have hmem := Keyed.mem_of_find? hchild
        intro step hstep
        rcases List.mem_cons.1 hstep with rfl | hrest
        · exact fit (step, child) hmem
        · exact ih (below (key, child) hmem) hfound step hrest
      · cases hfound

theorem WellKeyed.fit_nodes {tree : ModuleTree} (h : WellKeyed tree) :
    ∀ entry ∈ tree.nodes, ∀ key ∈ entry.1, IsKey key := by
  induction h with
  | @node info children distinct fit below ih =>
    intro entry hentry key hkey
    obtain ⟨keys, found⟩ := entry
    rw [nodes_node] at hentry
    rcases List.mem_cons.1 hentry with heq | hbelow
    · cases heq
      cases hkey
    · obtain ⟨step, child, rest, hchild, hrest, rfl⟩ := mem_childNodes.1 hbelow
      rcases List.mem_cons.1 hkey with rfl | hkey
      · exact fit (key, child) hchild
      · exact ih (step, child) hchild (rest, found) hrest key hkey

/-- A listed module can be walked to under its keys. -/
theorem WellKeyed.infoAt?_of_mem {tree : ModuleTree} (h : WellKeyed tree) :
    ∀ entry ∈ tree.nodes, tree.infoAt? entry.1 = some entry.2 := by
  induction h with
  | @node info children distinct fit below ih =>
    intro entry hentry
    obtain ⟨keys, found⟩ := entry
    rw [nodes_node] at hentry
    rcases List.mem_cons.1 hentry with heq | hbelow
    · cases heq
      rfl
    · obtain ⟨step, child, rest, hchild, hrest, rfl⟩ := mem_childNodes.1 hbelow
      have hwalk := ih (step, child) hchild (rest, found) hrest
      rw [infoAt?] at hwalk ⊢
      rw [locate?, Keyed.find?_of_mem distinct hchild]
      exact hwalk

theorem nodup_childNodes {children : List (String × ModuleTree)}
    (distinct : (children.map Prod.fst).Nodup)
    (below : ∀ entry ∈ children, (entry.2.nodes.map Prod.fst).Nodup) :
    ((childNodes children).map Prod.fst).Nodup := by
  induction children with
  | nil => exact List.nodup_nil
  | cons entry rest ih =>
    obtain ⟨hnot, hrest⟩ := List.nodup_cons.1 distinct
    rw [childNodes, List.map_append, List.map_map]
    refine List.nodup_append.2 ⟨?_, ?_, ?_⟩
    · have hentry := below entry List.mem_cons_self
      rw [List.Nodup, List.pairwise_map] at hentry ⊢
      exact hentry.imp fun hne heq => hne (List.cons.inj heq).2
    · exact ih hrest fun other hother => below other (List.mem_cons_of_mem _ hother)
    · intro keys hkeys keys' hkeys' heq
      subst heq
      obtain ⟨inner, -, hinner⟩ := List.mem_map.1 hkeys
      obtain ⟨⟨outer, found⟩, houter, rfl⟩ := List.mem_map.1 hkeys'
      obtain ⟨step, child, tail, hchild, -, hsteps⟩ := mem_childNodes.1 houter
      have hstep : entry.1 = step := by
        rw [Function.comp] at hinner
        exact (List.cons.inj (hinner.trans hsteps)).1
      exact hnot (hstep ▸ List.mem_map_of_mem hchild)

theorem WellKeyed.nodup_nodes {tree : ModuleTree} (h : WellKeyed tree) :
    (tree.nodes.map Prod.fst).Nodup := by
  induction h with
  | @node info children distinct fit below ih =>
    rw [nodes_node, List.map_cons, List.nodup_cons]
    refine ⟨?_, nodup_childNodes distinct ih⟩
    intro hmem
    obtain ⟨⟨keys, found⟩, hbelow, hkeys⟩ := List.mem_map.1 hmem
    obtain ⟨step, child, rest, -, -, hsteps⟩ := mem_childNodes.1 hbelow
    rw [hsteps] at hkeys
    cases hkeys

theorem nodup_paths {tree : ModuleTree} (h : WellKeyed tree) : tree.paths.Nodup := by
  have hnodes := h.nodup_nodes
  rw [List.Nodup, List.pairwise_map] at hnodes
  rw [paths, List.Nodup, List.pairwise_map]
  refine hnodes.imp_of_mem ?_
  intro first second hfirst hsecond hne heq
  exact hne (ModulePath.ofKeys_inj (h.fit_nodes first hfirst) (h.fit_nodes second hsecond) heq)

/-- Every listed path is read back into keys that can be walked along. -/
theorem WellKeyed.of_mem_paths {tree : ModuleTree} (h : WellKeyed tree) {path : String}
    (hpath : path ∈ tree.paths) :
    ∃ keys info, ModulePath.segments? path = some keys ∧ ModulePath.ofKeys keys = path ∧
      (keys, info) ∈ tree.nodes ∧ tree.infoAt? keys = some info := by
  obtain ⟨⟨keys, info⟩, hentry, rfl⟩ := List.mem_map.1 hpath
  exact ⟨keys, info, ModulePath.segments?_ofKeys (h.fit_nodes _ hentry), rfl, hentry,
    h.infoAt?_of_mem _ hentry⟩

/-- Fit keys can be walked along exactly if their path is listed. -/
theorem WellKeyed.ofKeys_mem_paths_iff {tree : ModuleTree} (h : WellKeyed tree) {keys : List String}
    (hkeys : ∀ key ∈ keys, IsKey key) :
    ModulePath.ofKeys keys ∈ tree.paths ↔ (tree.locate? keys).isSome = true := by
  refine ⟨fun hpath => ?_, mem_paths_of_locate?⟩
  obtain ⟨others, info, hothers, -, -, hinfo⟩ := h.of_mem_paths hpath
  rw [ModulePath.segments?_ofKeys hkeys] at hothers
  obtain ⟨found, hfound, -⟩ := Option.map_eq_some_iff.1 hinfo
  rw [Option.some.inj hothers, hfound, Option.isSome_some]

/-- The paths that can be walked along are the listed ones. -/
theorem WellKeyed.isSome_locatePath?_iff {tree : ModuleTree} (h : WellKeyed tree) {path : String} :
    (tree.locatePath? path).isSome = true ↔ path ∈ tree.paths := by
  constructor
  · intro hlocated
    rw [locatePath?] at hlocated
    split at hlocated
    · rename_i keys hkeys
      obtain ⟨found, hfound⟩ := Option.isSome_iff_exists.1 hlocated
      have hfit := h.of_locate? hfound
      rw [← ModulePath.ofKeys_of_segments? hkeys fun key hkey => (hfit key hkey).1]
      exact mem_paths_of_locate? hlocated
    · cases hlocated
  · intro hpath
    obtain ⟨keys, info, hkeys, -, -, hinfo⟩ := h.of_mem_paths hpath
    obtain ⟨found, hfound, -⟩ := Option.map_eq_some_iff.1 hinfo
    simp only [locatePath?, hkeys, hfound, Option.isSome_some]

/-- No two of the listed paths are read back into the same keys. -/
theorem WellKeyed.pairwise_segments? {tree : ModuleTree} (h : WellKeyed tree) :
    tree.paths.Pairwise fun first second =>
      ModulePath.segments? first ≠ ModulePath.segments? second := by
  refine (nodup_paths h).imp_of_mem ?_
  intro first second hfirst hsecond hne heq
  obtain ⟨keys, -, hkeys, hpath, -⟩ := h.of_mem_paths hfirst
  obtain ⟨others, -, hothers, hother, -⟩ := h.of_mem_paths hsecond
  rw [hkeys, hothers] at heq
  rw [← hpath, ← hother, Option.some.inj heq] at hne
  exact hne rfl

/-! ### What a query can mean -/

/-- A query means a listed path, if it means anything. -/
theorem resolve_mem_paths {tree : ModuleTree} (h : WellKeyed tree) {query path : String}
    (hresolve : tree.resolve query = .ok path) : path ∈ tree.paths := by
  rw [resolve] at hresolve
  split at hresolve
  · split at hresolve
    · rename_i hlocated
      cases hresolve
      exact h.isSome_locatePath?_iff.1 hlocated
    · cases hresolve
  · have hnamed : ∀ path ∈ tree.pathsNamed (Text.trim query), path ∈ tree.paths := by
      intro path hmem
      obtain ⟨entry, hentry, rfl⟩ := List.mem_map.1 hmem
      exact List.mem_map_of_mem ((List.mem_filter.1 hentry).1)
    split at hresolve
    · cases hresolve
    · rename_i only honly
      cases hresolve
      exact hnamed path (by rw [honly]; exact List.mem_cons_self)
    · cases hresolve

/-! ### One module more -/

theorem nodes_insertBelow_perm {key : String} {steps : List String} {tree parent : ModuleTree}
    (info : ModuleInfo) (htree : WellKeyed tree) (hparent : tree.locate? steps = some parent)
    (hfree : Keyed.find? key parent.children = none) :
    (insertBelow key (single info) steps tree).nodes.Perm ((steps ++ [key], info) :: tree.nodes) := by
  induction steps generalizing tree with
  | nil =>
    cases hparent
    cases parent with
    | node top children =>
      have hchildren : (childNodes (Keyed.insert key (single info) children)).Perm
          (([key], info) :: childNodes children) := by
        rw [childNodes_eq_flatMap]
        refine ((Keyed.insert_perm (single info) hfree).flatMap_right _).trans ?_
        rw [List.flatMap_cons, ← childNodes_eq_flatMap]
        exact List.Perm.refl _
      rw [insertBelow, nodes_node, nodes_node]
      exact (hchildren.cons _).trans (List.Perm.swap _ _ _)
  | cons step steps ih =>
    cases htree with
    | @node top children distinct fit below =>
      rw [locate?] at hparent
      split at hparent
      · rename_i child hchild
        -- Only the subtree under the first step changes.
        obtain ⟨before, after, rfl⟩ := List.append_of_mem (Keyed.mem_of_find? hchild)
        rw [List.map_append, List.map_cons] at distinct
        have hside : ∀ entry ∈ before ++ after, ¬ entry.1 = step := by
          intro entry hentry heq
          have hmiddle := (List.perm_middle.nodup_iff.1 distinct)
          rw [← List.map_append, List.nodup_cons] at hmiddle
          exact hmiddle.1 (List.mem_map.2 ⟨entry, hentry, heq⟩)
        have hsame : ∀ entries : List (String × ModuleTree), (∀ entry ∈ entries, ¬ entry.1 = step) →
            (entries.map fun entry => if entry.1 = step then
              (entry.1, insertBelow key (single info) steps entry.2) else entry) = entries := by
          intro entries hentries
          calc (entries.map fun entry => if entry.1 = step then
                (entry.1, insertBelow key (single info) steps entry.2) else entry)
              = entries.map id := List.map_congr_left fun entry hentry => if_neg (hentries entry hentry)
            _ = entries := List.map_id _
        have hbelow := ih (below (step, child) (List.mem_append_right _ List.mem_cons_self)) hparent
        rw [insertBelow, nodes_node, nodes_node, List.map_append, List.map_cons, if_pos rfl,
          hsame before fun entry hentry => hside entry (List.mem_append_left _ hentry),
          hsame after fun entry hentry => hside entry (List.mem_append_right _ hentry)]
        simp only [childNodes_eq_flatMap, List.flatMap_append, List.flatMap_cons]
        refine List.Perm.trans (.cons _ ?_) (.swap _ _ _)
        refine (((hbelow.map _).append_right _).append_left _).trans ?_
        exact List.perm_middle
      · cases hparent

theorem nodes_add_perm {path : String} {info : ModuleInfo} {tree next : ModuleTree}
    (htree : WellKeyed tree) (h : tree.add path info = .ok next) :
    ∃ keys, ModulePath.segments? path = some keys ∧ ModulePath.ofKeys keys = path ∧
      next.nodes.Perm ((keys, info) :: tree.nodes) := by
  obtain ⟨parents, last, parent, hkeys, hlast, hparent, hfree, rfl⟩ := add_eq_ok h
  refine ⟨parents ++ [last], hkeys, ?_, nodes_insertBelow_perm info htree hparent hfree⟩
  refine ModulePath.ofKeys_of_segments? hkeys ?_
  intro key hkey
  rcases List.mem_append.1 hkey with hstep | hend
  · exact (htree.of_locate? hparent key hstep).1
  · rw [List.mem_singleton.1 hend]
    exact hlast.1

theorem paths_add_perm {path : String} {info : ModuleInfo} {tree next : ModuleTree}
    (htree : WellKeyed tree) (h : tree.add path info = .ok next) :
    next.paths.Perm (path :: tree.paths) := by
  obtain ⟨keys, -, hpath, hnodes⟩ := nodes_add_perm htree h
  have hpaths := hnodes.map fun entry => ModulePath.ofKeys entry.1
  rw [List.map_cons, hpath] at hpaths
  exact hpaths

/-! ### Nothing known yet -/

theorem mem_nodes_insertBelow {key : String} {child : ModuleTree} {steps : List String}
    {tree : ModuleTree} :
    ∀ entry ∈ (insertBelow key child steps tree).nodes,
      entry ∈ tree.nodes ∨ ∃ rest, (rest, entry.2) ∈ child.nodes := by
  induction steps generalizing tree with
  | nil =>
    cases tree with
    | node info children =>
      intro entry hentry
      obtain ⟨keys, found⟩ := entry
      rw [insertBelow, nodes_node] at hentry
      rcases List.mem_cons.1 hentry with heq | hbelow
      · rw [heq]
        exact Or.inl List.mem_cons_self
      · obtain ⟨step, subtree, rest, hsub, hrest, rfl⟩ := mem_childNodes.1 hbelow
        rcases Keyed.mem_insert hsub with heq | hold
        · cases heq
          exact Or.inr ⟨rest, hrest⟩
        · exact Or.inl (List.mem_cons_of_mem _ (mem_childNodes.2 ⟨_, _, _, hold, hrest, rfl⟩))
  | cons step steps ih =>
    cases tree with
    | node info children =>
      intro entry hentry
      obtain ⟨keys, found⟩ := entry
      rw [insertBelow, nodes_node] at hentry
      rcases List.mem_cons.1 hentry with heq | hbelow
      · rw [heq]
        exact Or.inl List.mem_cons_self
      · obtain ⟨next, subtree, rest, hsub, hrest, rfl⟩ := mem_childNodes.1 hbelow
        obtain ⟨⟨known, old⟩, hold, heq⟩ := List.mem_map.1 hsub
        by_cases hstep : known = step
        · rw [if_pos hstep] at heq
          cases heq
          rcases ih _ hrest with hrest | hchild
          · exact Or.inl (List.mem_cons_of_mem _ (mem_childNodes.2 ⟨_, _, _, hold, hrest, rfl⟩))
          · exact Or.inr hchild
        · rw [if_neg hstep] at heq
          cases heq
          exact Or.inl (List.mem_cons_of_mem _ (mem_childNodes.2 ⟨_, _, _, hold, hrest, rfl⟩))

/-- Of the modules of a built tree nothing is known but name and group. -/
theorem Built.info_eq_new {tree : ModuleTree} (h : Built tree) :
    ∀ entry ∈ tree.nodes, entry.2 = .new entry.2.name entry.2.group := by
  induction h with
  | root name group =>
    intro entry hentry
    rw [List.mem_singleton.1 hentry]
    rfl
  | add _ added ih =>
    intro entry hentry
    obtain ⟨parents, last, parent, -, -, -, -, rfl⟩ := add_eq_ok added
    rcases mem_nodes_insertBelow entry hentry with hold | ⟨rest, hnew⟩
    · exact ih entry hold
    · have hinfo := (Prod.mk.inj (List.mem_singleton.1 hnew)).2
      rw [hinfo]
      rfl

end BuildAlignment.ModuleTree
