import BuildAlignment.Proofs.ModuleTree.Built

/-!
# Trees in key order

Where a module is in a tree is said by the keys that lead to it. All ways to go through a tree are
compared with this.

* `ModuleTree.Leads`: some keys lead to a subtree. By `ModuleTree.mem_nodes_iff` the listed modules
  are those that keys lead to, and by `ModuleTree.WellKeyed.leads_iff` a walk ends where its keys lead.
* `ModuleTree.Arranged` holds of trees whose keys are fit for paths and in order. By
  `ModuleTree.Built.arranged` every tree that a build makes is one, and by
  `ModuleTree.Arranged.updateAt` it stays so when what is kept for its modules changes.
* `ModuleTree.Lists`: some paths are those of the subtrees with a property, depth first. The paths of
  a tree (`ModuleTree.Arranged.lists_paths`) and of its modules of one name
  (`ModuleTree.Arranged.lists_pathsNamed`) are listed in this way.
* `ModuleTree.InKeyOrder.ext`: a tree is known from its modules.
-/

namespace BuildAlignment.ModuleTree

/-! ### Where keys lead -/

/-- The subtree that some keys lead to, one child after the other. -/
inductive Leads : ModuleTree → List String → ModuleTree → Prop
  | here (tree : ModuleTree) : Leads tree [] tree
  | down {info : ModuleInfo} {children : List (String × ModuleTree)} {key : String}
      {child : ModuleTree} {keys : List String} {found : ModuleTree}
      (listed : (key, child) ∈ children) (further : Leads child keys found) :
      Leads (node info children) (key :: keys) found

/-- The listed modules are those that keys lead to. -/
theorem mem_nodes_iff {keys : List String} {info : ModuleInfo} {tree : ModuleTree} :
    (keys, info) ∈ tree.nodes ↔ ∃ found, tree.Leads keys found ∧ found.info = info := by
  constructor
  · intro h
    induction keys generalizing tree with
    | nil =>
      cases tree with
      | node top children =>
        rw [nodes_node] at h
        rcases List.mem_cons.1 h with heq | hbelow
        · cases heq
          exact ⟨_, .here _, rfl⟩
        · obtain ⟨_, _, _, -, -, heq⟩ := mem_childNodes.1 hbelow
          cases heq
    | cons key keys ih =>
      cases tree with
      | node top children =>
        rw [nodes_node] at h
        rcases List.mem_cons.1 h with heq | hbelow
        · cases heq
        · obtain ⟨_, child, _, hchild, hfurther, heq⟩ := mem_childNodes.1 hbelow
          cases heq
          obtain ⟨found, hleads, hinfo⟩ := ih hfurther
          exact ⟨found, .down hchild hleads, hinfo⟩
  · rintro ⟨found, hleads, rfl⟩
    induction hleads with
    | here tree =>
      cases tree with
      | node top children => exact List.mem_cons_self
    | down listed _ ih =>
      rw [nodes_node]
      exact List.mem_cons_of_mem _ (mem_childNodes.2 ⟨_, _, _, listed, ih, rfl⟩)

theorem leads_of_locate? {keys : List String} {tree found : ModuleTree}
    (h : tree.locate? keys = some found) : tree.Leads keys found := by
  induction keys generalizing tree with
  | nil =>
    cases h
    exact .here _
  | cons key keys ih =>
    cases tree with
    | node info children =>
      rw [locate?] at h
      split at h
      · rename_i child hchild
        exact .down (Keyed.mem_of_find? hchild) (ih h)
      · cases h

/-- Where siblings have distinct keys, a walk ends where its keys lead. -/
theorem WellKeyed.leads_iff {keys : List String} {tree found : ModuleTree} (h : tree.WellKeyed) :
    tree.Leads keys found ↔ tree.locate? keys = some found := by
  refine ⟨fun hleads => ?_, leads_of_locate?⟩
  induction hleads with
  | here tree => rfl
  | down listed _ ih =>
    cases h with
    | @node info children distinct fit below =>
      rw [locate?, Keyed.find?_of_mem distinct listed]
      exact ih (below _ listed)

theorem WellKeyed.leads_inj {first second : List String} {tree found other : ModuleTree}
    (h : tree.WellKeyed) (hfirst : tree.Leads first found) (hsecond : tree.Leads second other)
    (hpath : ModulePath.ofKeys first = ModulePath.ofKeys second) :
    first = second ∧ found = other := by
  have hfit := h.of_locate? (h.leads_iff.1 hfirst)
  have hfit' := h.of_locate? (h.leads_iff.1 hsecond)
  have hkeys := ModulePath.ofKeys_inj hfit hfit' hpath
  subst hkeys
  refine ⟨rfl, Option.some.inj ?_⟩
  rw [← h.leads_iff.1 hfirst, h.leads_iff.1 hsecond]

/-- The paths of a tree are those of the places that keys lead to. -/
theorem mem_paths_iff {path : String} {tree : ModuleTree} :
    path ∈ tree.paths ↔ ∃ keys found, tree.Leads keys found ∧ ModulePath.ofKeys keys = path := by
  constructor
  · intro hpath
    obtain ⟨⟨keys, info⟩, hentry, rfl⟩ := List.mem_map.1 hpath
    obtain ⟨found, hleads, -⟩ := mem_nodes_iff.1 hentry
    exact ⟨keys, found, hleads, rfl⟩
  · rintro ⟨keys, found, hleads, rfl⟩
    exact List.mem_map.2 ⟨(keys, found.info), mem_nodes_iff.2 ⟨found, hleads, rfl⟩, rfl⟩

/-! ### Key order -/

/-- The children of every module are in the order of their keys. -/
inductive InKeyOrder : ModuleTree → Prop
  | node {info : ModuleInfo} {children : List (String × ModuleTree)}
      (ordered : Keyed.Ordered children) (below : ∀ entry ∈ children, InKeyOrder entry.2) :
      InKeyOrder (node info children)

theorem InKeyOrder.single (info : ModuleInfo) : InKeyOrder (single info) :=
  .node List.Pairwise.nil fun _ hentry => absurd hentry List.not_mem_nil

theorem InKeyOrder.insertBelow {key : String} {child : ModuleTree} (hchild : InKeyOrder child)
    {tree : ModuleTree} (h : InKeyOrder tree) (steps : List String) :
    InKeyOrder (insertBelow key child steps tree) := by
  induction steps generalizing tree with
  | nil =>
    cases h with
    | @node info children ordered below =>
      exact .node (Keyed.ordered_insert child ordered) (Keyed.forall_insert key hchild below)
  | cons step steps ih =>
    cases h with
    | @node info children ordered below =>
      exact .node (ordered.map_at step _) (Keyed.forall_map_at step _ below fun _ _ => ih)

theorem InKeyOrder.updateAt {tree : ModuleTree} (h : InKeyOrder tree)
    (change : ModuleInfo → ModuleInfo) (keys : List String) :
    InKeyOrder (tree.updateAt change keys) := by
  induction keys generalizing tree with
  | nil =>
    cases h with
    | @node info children ordered below => exact .node ordered below
  | cons key keys ih =>
    cases h with
    | @node info children ordered below =>
      exact .node (ordered.map_at key _) (Keyed.forall_map_at key _ below fun _ _ => ih)

/-- The modules are listed in the order of the keys that lead to them, where a module comes before
those below it. -/
theorem InKeyOrder.pairwise_nodes {tree : ModuleTree} (h : InKeyOrder tree) :
    tree.nodes.Pairwise fun first second => first.1 < second.1 := by
  induction h with
  | @node info children ordered below ih =>
    rw [nodes_node, List.pairwise_cons]
    constructor
    · rintro ⟨keys, found⟩ hentry
      obtain ⟨key, _, rest, -, -, rfl⟩ := mem_childNodes.1 hentry
      exact List.nil_lt_cons key rest
    · rw [childNodes_eq_flatMap, List.pairwise_flatMap]
      constructor
      · intro entry hentry
        rw [List.pairwise_map]
        exact (ih entry hentry).imp fun hlt => List.cons_lt_cons_iff.2 (.inr ⟨rfl, hlt⟩)
      · refine ordered.imp ?_
        intro first second hlt before hbefore after hafter
        obtain ⟨_, -, rfl⟩ := List.mem_map.1 hbefore
        obtain ⟨_, -, rfl⟩ := List.mem_map.1 hafter
        exact List.cons_lt_cons_iff.2 (.inl hlt)

theorem mem_nodes_child {info found : ModuleInfo} {children : List (String × ModuleTree)}
    {key : String} {child : ModuleTree} {keys : List String} (ordered : Keyed.Ordered children)
    (hchild : (key, child) ∈ children) :
    (key :: keys, found) ∈ (node info children).nodes ↔ (keys, found) ∈ child.nodes := by
  have hfirst := Keyed.find?_of_mem ordered.distinct hchild
  rw [nodes_node, List.mem_cons, mem_childNodes]
  constructor
  · rintro (heq | ⟨_, other, _, hother, hfound, heq⟩)
    · cases heq
    · cases heq
      rw [Keyed.find?_of_mem ordered.distinct hother] at hfirst
      cases hfirst
      exact hfound
  · exact fun hfound => .inr ⟨key, child, keys, hchild, hfound, rfl⟩

theorem exists_child_of_mem_nodes {info found : ModuleInfo}
    {children : List (String × ModuleTree)} {key : String} {keys : List String}
    (h : (key :: keys, found) ∈ (node info children).nodes) : ∃ child, (key, child) ∈ children := by
  rw [nodes_node] at h
  rcases List.mem_cons.1 h with heq | hbelow
  · cases heq
  · obtain ⟨_, child, _, hchild, -, heq⟩ := mem_childNodes.1 hbelow
    cases heq
    exact ⟨child, hchild⟩

/-- A tree in key order is known from its modules. -/
theorem InKeyOrder.ext {first second : ModuleTree} (hfirst : InKeyOrder first)
    (hsecond : InKeyOrder second) (h : ∀ entry, entry ∈ first.nodes ↔ entry ∈ second.nodes) :
    first = second := by
  induction hfirst generalizing second with
  | @node info children ordered below ih =>
    cases hsecond with
    | @node info' children' ordered' below' =>
      have hinfo : info = info' := by
        have htop : (([] : List String), info) ∈ (ModuleTree.node info' children').nodes :=
          (h _).1 List.mem_cons_self
        obtain ⟨found, hleads, hkept⟩ := mem_nodes_iff.1 htop
        cases hleads
        exact hkept.symm
      -- Under one key both trees have the same modules, so by induction the same subtree.
      have hsame : ∀ key child child', (key, child) ∈ children → (key, child') ∈ children' →
          child = child' := by
        intro key child child' hchild hchild'
        refine ih (key, child) hchild (below' (key, child') hchild') ?_
        rintro ⟨keys, found⟩
        rw [← mem_nodes_child ordered hchild, h, mem_nodes_child ordered' hchild']
      have htop : ∀ tree : ModuleTree, ([], tree.info) ∈ tree.nodes := fun tree =>
        mem_nodes_iff.2 ⟨tree, .here tree, rfl⟩
      have hchildren : children = children' := by
        refine ordered.eq_of_mem_iff ordered' ?_
        rintro ⟨key, child⟩
        constructor
        · intro hchild
          have hmem : ([key], child.info) ∈ (ModuleTree.node info children).nodes :=
            (mem_nodes_child ordered hchild).2 (htop child)
          obtain ⟨child', hchild'⟩ := exists_child_of_mem_nodes ((h _).1 hmem)
          rw [hsame key child child' hchild hchild']
          exact hchild'
        · intro hchild'
          have hmem : ([key], child.info) ∈ (ModuleTree.node info' children').nodes :=
            (mem_nodes_child ordered' hchild').2 (htop child)
          obtain ⟨child', hchild⟩ := exists_child_of_mem_nodes ((h _).2 hmem)
          rw [← hsame key child' child hchild hchild']
          exact hchild
      rw [hinfo, hchildren]

/-! ### Arranged trees -/

/-- A tree as maps keep it and paths can tell it: every key is fit for a path, and the children of
every module are in the order of their keys. -/
structure Arranged (tree : ModuleTree) : Prop where
  wellKeyed : tree.WellKeyed
  inKeyOrder : tree.InKeyOrder

/-- A tree that a build makes is arranged. -/
theorem Built.arranged {tree : ModuleTree} (h : tree.Built) : tree.Arranged := by
  refine ⟨h.wellKeyed, ?_⟩
  induction h with
  | root name group => exact .single _
  | add _ added ih =>
    obtain ⟨parents, last, parent, -, -, -, -, rfl⟩ := add_eq_ok added
    exact .insertBelow (.single _) ih parents

theorem WellKeyed.updateAt {tree : ModuleTree} (h : tree.WellKeyed)
    (change : ModuleInfo → ModuleInfo) (keys : List String) :
    (tree.updateAt change keys).WellKeyed := by
  induction keys generalizing tree with
  | nil =>
    cases h with
    | @node info children distinct fit below => exact .node distinct fit below
  | cons key keys ih =>
    cases h with
    | @node info children distinct fit below =>
      have hkeys := Keyed.fst_map_at key (ModuleTree.updateAt change keys) children
      refine .node (hkeys ▸ distinct) ?_ (Keyed.forall_map_at key _ below fun _ _ => ih)
      rw [← List.forall_mem_map (P := ModulePath.IsKey), hkeys, List.forall_mem_map]
      exact fit

/-- What is kept for the modules of an arranged tree may change. -/
theorem Arranged.updateAt {tree : ModuleTree} (h : tree.Arranged)
    (change : ModuleInfo → ModuleInfo) (keys : List String) :
    (tree.updateAt change keys).Arranged :=
  ⟨h.wellKeyed.updateAt change keys, h.inKeyOrder.updateAt change keys⟩

/-! ### Lists of paths -/

/-- The paths of the subtrees with a property, each once and depth first: a module comes before those
below it, and siblings with all that is below them come in the order of their keys. -/
def Lists (tree : ModuleTree) (property : ModuleTree → Prop) (paths : List String) : Prop :=
  ∃ places : List (List String), places.map ModulePath.ofKeys = paths ∧ places.Pairwise (· < ·) ∧
    ∀ keys, keys ∈ places ↔ ∃ found, tree.Leads keys found ∧ property found

/-- Choosing among the modules of a tree lists those that are chosen. -/
theorem InKeyOrder.lists_filter {tree : ModuleTree} (h : InKeyOrder tree)
    (choose : ModuleInfo → Bool) :
    tree.Lists (fun found => choose found.info = true)
      ((tree.nodes.filter fun entry => choose entry.2).map fun entry =>
        ModulePath.ofKeys entry.1) := by
  refine ⟨(tree.nodes.filter fun entry => choose entry.2).map Prod.fst, ?_, ?_, ?_⟩
  · rw [List.map_map]
    rfl
  · exact List.pairwise_map.2 (h.pairwise_nodes.sublist List.filter_sublist)
  · intro keys
    rw [List.mem_map]
    constructor
    · rintro ⟨⟨_, info⟩, hentry, rfl⟩
      obtain ⟨hlisted, hchosen⟩ := List.mem_filter.1 hentry
      obtain ⟨found, hleads, rfl⟩ := mem_nodes_iff.1 hlisted
      exact ⟨found, hleads, hchosen⟩
    · rintro ⟨found, hleads, hchosen⟩
      exact ⟨(keys, found.info),
        List.mem_filter.2 ⟨mem_nodes_iff.2 ⟨found, hleads, rfl⟩, hchosen⟩, rfl⟩

/-- The paths of a tree list all that is in it. -/
theorem Arranged.lists_paths {tree : ModuleTree} (h : tree.Arranged) :
    tree.Lists (fun _ => True) tree.paths := by
  have hall := h.inKeyOrder.lists_filter fun _ => true
  rw [List.filter_true] at hall
  simpa [paths] using hall

/-- The paths under a name list the modules that have it. -/
theorem Arranged.lists_pathsNamed {tree : ModuleTree} (h : tree.Arranged) (name : String) :
    tree.Lists (fun found => found.info.name = name) (tree.pathsNamed name) := by
  simpa [pathsNamed] using h.inKeyOrder.lists_filter fun info => decide (info.name = name)

end BuildAlignment.ModuleTree
