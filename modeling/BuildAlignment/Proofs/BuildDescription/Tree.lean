import BuildAlignment.BuildDescription
import BuildAlignment.Proofs.ModulePath.Nested
import BuildAlignment.Proofs.ModuleTree.Arranged
import BuildAlignment.Proofs.Sequence

/-!
# The tree of a build description

The modules of a description are added to the tree in the order of their depth.

* `ModuleTree.WellKeyed.exists_add_iff`: a module can be added if its path is new and right below a
  listed one. `ModuleTree.WellKeyed.nested`: the paths of a tree are nested below its root.
* `BuildDescription.exists_addAll_iff`: modules can be added one after another if their paths grow.
* `BuildDescription.of_addAll`: then each of them is in the tree with what is described of it. For
  all modules of a description this is `BuildDescription.of_toTree`.
* `BuildDescription.of_registrations`: what the modules hand in, root first.
* `BuildDescription.toTree_exact`: a description makes a tree exactly if its paths are nested. The
  tree has the listed modules and what they register by, and does not depend on their order in the
  list.
-/

namespace BuildAlignment

namespace ModuleTree

open ModulePath (Below IsKey Nested)

/-- A module can be added if its path is new and right below that of a module. -/
theorem WellKeyed.exists_add_iff {tree : ModuleTree} (h : tree.WellKeyed) {path : String}
    {info : ModuleInfo} :
    (∃ next, tree.add path info = .ok next) ↔
      path ∉ tree.paths ∧ ∃ parent ∈ tree.paths, Below parent path := by
  constructor
  · rintro ⟨next, hadded⟩
    obtain ⟨parents, last, parent, hkeys, hlast, hparent, hfree, -⟩ := add_eq_ok hadded
    have hfit : ∀ step ∈ parents ++ [last], IsKey step := by
      intro step hstep
      rcases List.mem_append.1 hstep with hfirst | hend
      · exact h.of_locate? hparent step hfirst
      · exact List.mem_singleton.1 hend ▸ hlast
    obtain rfl := ModulePath.ofKeys_of_segments? hkeys fun step hstep => (hfit step hstep).1
    refine ⟨?_, ModulePath.ofKeys parents, ?_, parents, last, hfit, rfl, rfl⟩
    · rw [h.ofKeys_mem_paths_iff hfit, locate?_concat hparent, hfree]
      exact Bool.false_ne_true
    · exact mem_paths_of_locate? (Option.isSome_of_eq_some hparent)
  · rintro ⟨hnew, _, hlisted, keys, key, hfit, rfl, rfl⟩
    have hparents : ∀ step ∈ keys, IsKey step := fun step hstep =>
      hfit step (List.mem_append_left _ hstep)
    obtain ⟨parent, hparent⟩ :=
      Option.isSome_iff_exists.1 ((h.ofKeys_mem_paths_iff hparents).1 hlisted)
    rw [h.ofKeys_mem_paths_iff hfit, locate?_concat hparent, Option.not_isSome_iff_eq_none] at hnew
    exact ⟨_, add_of_locate? (ModulePath.segments?_ofKeys hfit)
      (fun step hstep => (hfit step hstep).1) hparent hnew⟩

/-- The paths of a tree are nested below its root. -/
theorem WellKeyed.nested {tree : ModuleTree} (h : tree.WellKeyed) {paths : List String}
    (hpaths : tree.paths.Perm (ModulePath.root :: paths)) : Nested paths := by
  have honce := List.nodup_cons.1 (hpaths.nodup_iff.1 (nodup_paths h))
  have hkeys : ∀ path ∈ paths, ∃ keys found, tree.locate? keys = some found ∧ keys ≠ [] ∧
      ModulePath.ofKeys keys = path := by
    intro path hpath
    obtain ⟨keys, found, hleads, rfl⟩ :=
      mem_paths_iff.1 (hpaths.mem_iff.2 (List.mem_cons_of_mem _ hpath))
    refine ⟨keys, found, h.leads_iff.1 hleads, ?_, rfl⟩
    rintro rfl
    exact honce.1 hpath
  refine ⟨?_, honce.2, ?_⟩
  · intro path hpath
    obtain ⟨keys, found, hfound, hne, heq⟩ := hkeys path hpath
    exact ModulePath.sound_iff.2 ⟨keys, hne, h.of_locate? hfound, heq⟩
  · intro path hpath ancestor habove
    obtain ⟨keys, found, hfound, -, rfl⟩ := hkeys path hpath
    have hfit := h.of_locate? hfound
    obtain ⟨before, after, hbefore, -, rfl, rfl⟩ := (ModulePath.above_iff hfit).1 habove
    -- The walk to the module comes by its ancestor.
    rw [locate?_append] at hfound
    obtain ⟨ancestor, hancestor, -⟩ := Option.bind_eq_some_iff.1 hfound
    have hlisted := mem_paths_of_locate? (Option.isSome_of_eq_some hancestor)
    refine (List.mem_cons.1 (hpaths.mem_iff.1 hlisted)).resolve_left ?_
    exact ModulePath.ofKeys_ne_root hbefore fun key hkey => hfit key (List.mem_append_left _ hkey)

end ModuleTree

namespace BuildDescription

open ModulePath (Grows Nested)

variable {build : BuildDescription} {tree : ModuleTree} {registrations : List Registration}

/-! ### Modules added one after another -/

def addAll (build : BuildDescription) (descriptions : List ModuleDescription) (start : ModuleTree) :
    Except AlignmentError ModuleTree :=
  descriptions.foldlM
    (fun tree description =>
      tree.add description.path (.new (nameOf description) (build.groupOf description)))
    start

def rootTree (build : BuildDescription) : ModuleTree :=
  .single (.new build.rootName build.rootGroup)

theorem toTree_eq (build : BuildDescription) :
    build.toTree = build.addAll build.byDepth build.rootTree := rfl

theorem addAll_cons (description : ModuleDescription) (rest : List ModuleDescription)
    (start : ModuleTree) :
    build.addAll (description :: rest) start
      = (start.add description.path (.new (nameOf description) (build.groupOf description))).bind
          (build.addAll rest) := rfl

/-- The keys of a module and what is kept for it. -/
def entryOf (build : BuildDescription) (description : ModuleDescription) :
    List String × ModuleInfo :=
  ((ModulePath.segments? description.path).getD [],
    .new (nameOf description) (build.groupOf description))

/-- Modules can be added one after another exactly if their paths grow from those that are there. -/
theorem exists_addAll_iff {descriptions : List ModuleDescription} {start : ModuleTree}
    (built : start.Built) :
    (∃ tree, build.addAll descriptions start = .ok tree) ↔
      Grows start.paths (descriptions.map ModuleDescription.path) := by
  induction descriptions generalizing start with
  | nil => exact ⟨fun _ => .done _, fun _ => ⟨start, rfl⟩⟩
  | cons description rest ih =>
    have hknown : ∀ {next}, start.add description.path
        (.new (nameOf description) (build.groupOf description)) = .ok next →
        ∀ path, path ∈ next.paths ↔ path ∈ description.path :: start.paths :=
      fun hadded path => (ModuleTree.paths_add_perm built.wellKeyed hadded).mem_iff
    rw [addAll_cons, List.map_cons]
    constructor
    · rintro ⟨tree, htree⟩
      cases hadded : start.add description.path
          (.new (nameOf description) (build.groupOf description)) with
      | error error =>
        rw [hadded] at htree
        cases htree
      | ok next =>
        rw [hadded] at htree
        obtain ⟨hnew, parent, hparent, hbelow⟩ := built.wellKeyed.exists_add_iff.1 ⟨next, hadded⟩
        exact .next hnew hparent hbelow
          (((ih (.add built hadded)).1 ⟨tree, htree⟩).congr (hknown hadded))
    · intro hgrows
      cases hgrows with
      | next hnew hparent hbelow hfurther =>
        obtain ⟨next, hadded⟩ := built.wellKeyed.exists_add_iff.2 ⟨hnew, _, hparent, hbelow⟩
        rw [hadded]
        exact (ih (.add built hadded)).2 (hfurther.congr fun path => (hknown hadded path).symm)

/-- Modules that are added one after another join those that are there, each under the keys of its
path. -/
theorem of_addAll {descriptions : List ModuleDescription} {start : ModuleTree}
    (built : start.Built) (h : build.addAll descriptions start = .ok tree) :
    tree.Built ∧ tree.nodes.Perm (descriptions.map build.entryOf ++ start.nodes) ∧
      ∀ description ∈ descriptions,
        ModulePath.ofKeys (build.entryOf description).1 = description.path := by
  induction descriptions generalizing start with
  | nil =>
    cases h
    exact ⟨built, List.Perm.refl _, by simp⟩
  | cons description rest ih =>
    rw [addAll_cons] at h
    cases hadded : start.add description.path
        (.new (nameOf description) (build.groupOf description)) with
    | error error =>
      rw [hadded] at h
      cases h
    | ok next =>
      rw [hadded] at h
      obtain ⟨hbuilt, hnodes, hpaths⟩ := ih (.add built hadded) h
      obtain ⟨keys, hkeys, hpath, hadd⟩ := ModuleTree.nodes_add_perm built.wellKeyed hadded
      have hentry : build.entryOf description
          = (keys, .new (nameOf description) (build.groupOf description)) := by
        rw [entryOf, hkeys, Option.getD_some]
      refine ⟨hbuilt, ?_, List.forall_mem_cons.2 ⟨by rw [hentry, hpath], hpaths⟩⟩
      rw [← hentry] at hadd
      exact hnodes.trans ((hadd.append_left _).trans List.perm_middle)

/-! ### The tree -/

theorem byDepth_perm (build : BuildDescription) : build.byDepth.Perm build.modules :=
  List.mergeSort_perm _ _

/-- No module comes before one with fewer colons in its path. -/
theorem pairwise_byDepth (build : BuildDescription) :
    (build.byDepth.map ModuleDescription.path).Pairwise fun first second =>
      Text.count ':' first ≤ Text.count ':' second := by
  rw [List.pairwise_map]
  have hsorted : build.byDepth.Pairwise fun first second =>
      decide (Text.count ':' first.path ≤ Text.count ':' second.path) = true := by
    refine List.pairwise_mergeSort ?_ ?_ _
    · intro first second third hfirst hsecond
      simp only [decide_eq_true_eq] at hfirst hsecond ⊢
      exact Nat.le_trans hfirst hsecond
    · intro first second
      simp only [Bool.or_eq_true, decide_eq_true_eq]
      exact Nat.le_total _ _
  exact hsorted.imp of_decide_eq_true

/-- The tree of an accepted description has its root and the modules, each under the keys of its
path. -/
theorem of_toTree (h : build.toTree = .ok tree) :
    tree.Built ∧ tree.nodes.Perm (build.rootTree.nodes ++ build.modules.map build.entryOf) ∧
      ∀ description ∈ build.modules,
        ModulePath.ofKeys (build.entryOf description).1 = description.path := by
  rw [toTree_eq] at h
  obtain ⟨hbuilt, hnodes, hpaths⟩ := of_addAll (.root _ _) h
  refine ⟨hbuilt, ?_, fun description hmem => hpaths _ (build.byDepth_perm.mem_iff.2 hmem)⟩
  exact hnodes.trans (((build.byDepth_perm.map _).append_right _).trans List.perm_append_comm)

theorem paths_toTree (h : build.toTree = .ok tree) :
    tree.paths.Perm (ModulePath.root :: build.modules.map ModuleDescription.path) := by
  obtain ⟨-, hnodes, hpaths⟩ := of_toTree h
  have hlisted := hnodes.map fun entry => ModulePath.ofKeys entry.1
  have hsame : build.modules.map ((fun entry => ModulePath.ofKeys entry.1) ∘ build.entryOf)
      = build.modules.map ModuleDescription.path := List.map_congr_left hpaths
  rw [List.map_append, List.map_map, hsame] at hlisted
  exact hlisted

theorem exists_toTree_iff :
    (∃ tree, build.toTree = .ok tree) ↔ Nested (build.modules.map ModuleDescription.path) := by
  constructor
  · rintro ⟨tree, htree⟩
    exact (of_toTree htree).1.wellKeyed.nested (paths_toTree htree)
  · intro hnested
    have hsorted : Nested ([] ++ build.byDepth.map ModuleDescription.path) :=
      hnested.of_perm (build.byDepth_perm.map _)
    rw [toTree_eq]
    exact (exists_addAll_iff (.root _ _)).2 (hsorted.grows build.pairwise_byDepth)

theorem toTree_of_perm (build : BuildDescription) {listed others : List ModuleDescription}
    (hperm : others.Perm listed) (h : { build with modules := listed }.toTree = .ok tree) :
    { build with modules := others }.toTree = .ok tree := by
  have hnested : Nested (others.map ModuleDescription.path) :=
    (exists_toTree_iff.1 ⟨tree, h⟩).of_perm (hperm.map _)
  obtain ⟨other, hother⟩ : ∃ other, { build with modules := others }.toTree = .ok other :=
    exists_toTree_iff.2 hnested
  obtain ⟨hbuilt, hnodes, -⟩ := of_toTree h
  obtain ⟨hbuilt', hnodes', -⟩ := of_toTree hother
  have hperms : other.nodes.Perm tree.nodes :=
    hnodes'.trans (((hperm.map _).append_left _).trans hnodes.symm)
  have hsame : other = tree :=
    hbuilt'.arranged.inKeyOrder.ext hbuilt.arranged.inKeyOrder fun _ => hperms.mem_iff
  rw [hother, hsame]

/-! ### The registrations -/

theorem exists_of_forall₂ {α β : Type} {related : α → β → Prop} {first : List α} {second : List β}
    (h : List.Forall₂ related first second) {y : β} (hy : y ∈ second) :
    ∃ x ∈ first, related x y := by
  induction h with
  | nil => cases hy
  | @cons x other _ _ hrelated _ ih =>
    rcases List.mem_cons.1 hy with rfl | hrest
    · exact ⟨x, List.mem_cons_self, hrelated⟩
    · obtain ⟨found, hfound, hrel⟩ := ih hrest
      exact ⟨found, List.mem_cons_of_mem _ hfound, hrel⟩

/-- What is handed in comes from the root and then from the modules as they are listed. -/
theorem of_registrations (h : build.registrations = .ok registrations) :
    ∃ top others, registrations = top :: others ∧ build.rootRegistration = .ok top ∧
      List.Forall₂ (fun description registration =>
        build.registration description = .ok registration) build.modules others := by
  rw [BuildDescription.registrations] at h
  split at h
  · cases h
  · rename_i top htop
    obtain ⟨others, hothers, rfl⟩ := of_map_eq_ok h
    exact ⟨top, others, rfl, htop, mapM_eq_ok_iff.1 hothers⟩

theorem of_registration {description : ModuleDescription} {registration : Registration}
    (h : build.registration description = .ok registration) :
    registration.module = description.path ∧ (build.entryOf description).2
      = .new registration.coordinate.artifact registration.coordinate.group := by
  obtain ⟨dependencies, -, rfl⟩ := of_map_eq_ok h
  exact ⟨rfl, rfl⟩

theorem of_rootRegistration {registration : Registration}
    (h : build.rootRegistration = .ok registration) :
    registration.module = ModulePath.root ∧ build.rootTree.info
      = .new registration.coordinate.artifact registration.coordinate.group := by
  obtain ⟨dependencies, -, rfl⟩ := of_map_eq_ok h
  exact ⟨rfl, rfl⟩

theorem module_registrations (h : build.registrations = .ok registrations) :
    registrations.map Registration.module
      = ModulePath.root :: build.modules.map ModuleDescription.path := by
  obtain ⟨top, others, rfl, htop, hothers⟩ := of_registrations h
  have hsame : List.Forall₂ Eq (build.modules.map ModuleDescription.path)
      (others.map Registration.module) := by
    rw [List.forall₂_map_left_iff, List.forall₂_map_right_iff]
    exact hothers.imp fun _ _ hmade => (of_registration hmade).1.symm
  rw [List.forall₂_eq_eq_eq] at hsame
  rw [List.map_cons, (of_rootRegistration htop).1, hsame]

/-- Every module registers from a place of the tree, with what the tree keeps there. -/
theorem leads_of_mem_registrations (htree : build.toTree = .ok tree)
    (h : build.registrations = .ok registrations) {registration : Registration}
    (hmem : registration ∈ registrations) :
    ∃ keys found, tree.Leads keys found ∧ ModulePath.ofKeys keys = registration.module ∧
      found.info = .new registration.coordinate.artifact registration.coordinate.group := by
  obtain ⟨-, hnodes, hpaths⟩ := of_toTree htree
  obtain ⟨top, others, rfl, htop, hothers⟩ := of_registrations h
  rcases List.mem_cons.1 hmem with rfl | hlater
  · obtain ⟨hmodule, hinfo⟩ := of_rootRegistration htop
    have hlisted : ([], build.rootTree.info) ∈ tree.nodes :=
      hnodes.mem_iff.2 (List.mem_append_left _ List.mem_cons_self)
    obtain ⟨found, hleads, hfound⟩ := ModuleTree.mem_nodes_iff.1 hlisted
    exact ⟨[], found, hleads, hmodule.symm, hfound.trans hinfo⟩
  · obtain ⟨description, hdescription, hmade⟩ := exists_of_forall₂ hothers hlater
    obtain ⟨hmodule, hinfo⟩ := of_registration hmade
    have hlisted : build.entryOf description ∈ tree.nodes :=
      hnodes.mem_iff.2 (List.mem_append_right _ (List.mem_map_of_mem hdescription))
    obtain ⟨found, hleads, hfound⟩ := ModuleTree.mem_nodes_iff.1 hlisted
    exact ⟨_, found, hleads, (hpaths description hdescription).trans hmodule.symm,
      hfound.trans hinfo⟩

/-! ### Exactly the described tree -/

/-- A tree that has the modules of a description and nothing else. -/
structure Mirrors (build : BuildDescription) (tree : ModuleTree) : Prop where
  /-- No path comes twice, and the paths are that of the root and those of the description. -/
  once : tree.paths.Nodup
  mem_iff : ∀ path, path ∈ tree.paths ↔
    path = ModulePath.root ∨ path ∈ build.modules.map ModuleDescription.path
  /-- The root comes first, and the others follow depth first in the order of their keys. -/
  rootFirst : tree.paths.head? = some ModulePath.root
  listed : tree.Lists (fun _ => True) tree.paths
  /-- The root and the listed modules register, each with the name and the group that the tree keeps
  at its path. -/
  registered : ∀ registrations, build.registrations = .ok registrations →
    registrations.map Registration.module
        = ModulePath.root :: build.modules.map ModuleDescription.path ∧
      ∀ registration ∈ registrations, ∃ keys found, tree.Leads keys found ∧
        ModulePath.ofKeys keys = registration.module ∧
        tree.locatePath? registration.module = some found ∧
        found.info.name = registration.coordinate.artifact ∧
        found.info.group = registration.coordinate.group

theorem mirrors (h : build.toTree = .ok tree) : build.Mirrors tree := by
  have hbuilt := (of_toTree h).1
  refine ⟨ModuleTree.nodup_paths hbuilt.wellKeyed, ?_, ?_, hbuilt.arranged.lists_paths, ?_⟩
  · intro path
    rw [(paths_toTree h).mem_iff, List.mem_cons]
  · obtain ⟨rest, hpaths⟩ := tree.paths_eq_cons
    rw [hpaths, List.head?_cons]
  · intro registrations hregistrations
    refine ⟨module_registrations hregistrations, fun registration hmem => ?_⟩
    obtain ⟨keys, found, hleads, hmodule, hinfo⟩ :=
      leads_of_mem_registrations h hregistrations hmem
    have hlocated : tree.locate? keys = some found := hbuilt.wellKeyed.leads_iff.1 hleads
    refine ⟨keys, found, hleads, hmodule, ?_, ?_, ?_⟩
    · rw [ModuleTree.locatePath?, ← hmodule,
        ModulePath.segments?_ofKeys (hbuilt.wellKeyed.of_locate? hlocated)]
      exact hlocated
    · rw [hinfo]
      rfl
    · rw [hinfo]
      rfl

/-- A description makes a tree exactly if its paths are sound, come once and have their ancestors
among them. The tree has the described modules, and it is the same in whatever order they are
listed. -/
theorem toTree_exact (build : BuildDescription) :
    ((∃ tree, build.toTree = .ok tree) ↔ Nested (build.modules.map ModuleDescription.path)) ∧
      (∀ tree, build.toTree = .ok tree → build.Mirrors tree) ∧
      ∀ others : List ModuleDescription, others.Perm build.modules → ∀ tree,
        { build with modules := others }.toTree = .ok tree ↔ build.toTree = .ok tree := by
  refine ⟨exists_toTree_iff, fun tree => mirrors, fun others hperm tree => ?_⟩
  exact ⟨build.toTree_of_perm hperm.symm, build.toTree_of_perm hperm⟩

/-- A module that is listed before its parent is below it all the same, and has the name that its path
ends in. -/
theorem toTree_exact_of_late_parent :
    let build : BuildDescription :=
      { root := { name := some "app", group := some "org.example", version := some "1.0" }
        modules :=
          [{ path := ":core:api", group := some "org.api"
             dependencies := [⟨"org.lib:base:1.+", some "org.lib:base:1.4"⟩] },
            { path := ":core", name := some "engine" }] }
    let tree : ModuleTree := .node (.new "app" "org.example")
      [("core", .node (.new "engine" "org.example") [("api", .single (.new "api" "org.api"))])]
    let registrations : List Registration :=
      [⟨":", ⟨"org.example", "app", "1.0"⟩, []⟩,
        ⟨":core:api", ⟨"org.api", "api", "1.0"⟩,
          [⟨⟨"org.lib", "base", "1.+"⟩, some ⟨"org.lib", "base", "1.4"⟩⟩]⟩,
        ⟨":core", ⟨"org.example", "engine", "1.0"⟩, []⟩]
    build.toTree = .ok tree ∧ build.registrations = .ok registrations ∧
      Nested [":core:api", ":core"] ∧ tree.paths = [":", ":core", ":core:api"] ∧
      registrations.map Registration.module = [":", ":core:api", ":core"] ∧
      ∀ registration ∈ registrations, ∃ found,
        tree.locatePath? registration.module = some found ∧
          found.info.name = registration.coordinate.artifact ∧
          found.info.group = registration.coordinate.group := by
  intro build tree registrations
  -- In the other order nothing is left to sort.
  let sorted : BuildDescription := { build with modules := build.modules.reverse }
  have hsorted : sorted.byDepth = sorted.modules := List.mergeSort_of_pairwise (by decide)
  have htree : sorted.toTree = .ok tree := by
    rw [toTree, hsorted]
    rfl
  have hbuild : build.toTree = .ok tree :=
    ((toTree_exact sorted).2.2 build.modules (List.reverse_perm _).symm tree).2 htree
  have hregistrations : build.registrations = .ok registrations := by decide +kernel
  obtain ⟨hnested, hmirrors, -⟩ := toTree_exact build
  obtain ⟨hlisted, hplaced⟩ := (hmirrors tree hbuild).registered registrations hregistrations
  refine ⟨hbuild, hregistrations, hnested.1 ⟨tree, hbuild⟩, by decide +kernel, hlisted, ?_⟩
  intro registration hmem
  obtain ⟨-, found, -, -, hfound, hname, hgroup⟩ := hplaced registration hmem
  exact ⟨found, hfound, hname, hgroup⟩

end BuildDescription

end BuildAlignment
