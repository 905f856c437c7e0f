import BuildAlignment.Proofs.Barrier.Endings
import BuildAlignment.Proofs.Barrier.Progress
import BuildAlignment.Proofs.BuildDescription.Tree
import BuildAlignment.Proofs.Coordinate

/-!
# Builds that can be completed

A build description lists modules by their paths. The tree is made of these paths, and the modules
register by them. The two agree unless a path ends in blank characters, which count for the tree but
not for a registration.

* `BuildDescription.Made` says what is made of a description: the tree has the listed paths, and the
  registrations come in the same order. By `BuildDescription.made` this is so for every description
  that is accepted.
* `BuildDescription.Made.paths_self_iff`: the paths mean themselves exactly if none of them ends in
  blank characters.
* `BuildDescription.concludes_registerAll`: then every order of the registrations runs the alignment.
* `BuildDescription.never_completes`: otherwise no order completes the build.
-/

namespace BuildAlignment

open SmallBuild (registrationOf)

/-! ### Paths with blank characters -/

namespace Text

/-- Of a text that begins with a colon only blank characters at its end are cut off. -/
theorem trimChars_colon (rest : List Char) :
    trimChars (':' :: rest) = ':' :: (rest.reverse.dropWhile isBlankChar).reverse := by
  have hcolon : isBlankChar ':' = false := by decide
  have hlast : (rest.reverse ++ [':']).dropWhile isBlankChar
      = rest.reverse.dropWhile isBlankChar ++ [':'] := by
    rw [List.dropWhile_append]
    split
    · rename_i hempty
      rw [List.isEmpty_iff.1 hempty, List.dropWhile_cons_of_neg (by simp [hcolon])]
      rfl
    · rfl
  rw [trimChars, List.dropWhile_cons_of_neg (by simp [hcolon]), List.reverse_cons, hlast,
    List.reverse_append]
  rfl

end Text

namespace ModulePath

/-- A path stays one when it is trimmed. -/
theorem isSome_segments?_trim {path : String} (h : (segments? path).isSome = true) :
    (segments? (Text.trim path)).isSome = true := by
  obtain ⟨rest, hpath⟩ := List.head?_eq_some_iff.1 (isSome_segments?_iff.1 h)
  rw [isSome_segments?_iff, Text.toList_trim, hpath, Text.trimChars_colon, List.head?_cons]

end ModulePath

namespace ModuleTree

/-- A path means what is left of it when it is trimmed, or nothing. -/
theorem trim_eq_of_resolve {tree : ModuleTree} {query path : String}
    (hkeys : (ModulePath.segments? query).isSome = true) (h : tree.resolve query = .ok path) :
    path = Text.trim query := by
  rw [resolve] at h
  simp only [ModulePath.isSome_segments?_trim hkeys, if_true] at h
  split at h
  · exact (Except.ok.inj h).symm
  · cases h

/-- A listed path means itself exactly if it ends in no blank character. -/
theorem resolve_self_iff {tree : ModuleTree} (htree : tree.WellKeyed) {path : String}
    (hpath : path ∈ tree.paths) : tree.resolve path = .ok path ↔ Text.trim path = path := by
  constructor
  · intro hself
    obtain ⟨keys, -, hkeys, -⟩ := htree.of_mem_paths hpath
    exact (trim_eq_of_resolve (Option.isSome_of_eq_some hkeys) hself).symm
  · exact resolve_of_locatePath? (htree.isSome_locatePath?_iff.2 hpath)

end ModuleTree

/-! ### What is made of a description -/

namespace BuildDescription

variable {build : BuildDescription} {tree : ModuleTree} {registrations : List Registration}

/-- What is made of an accepted description. -/
structure Made (build : BuildDescription) (tree : ModuleTree) (registrations : List Registration) :
    Prop where
  built : tree.Built
  paths : tree.paths.Perm (ModulePath.root :: build.modules.map ModuleDescription.path)
  /-- The modules register by the listed paths, root first. -/
  modules : registrations.map Registration.module
    = ModulePath.root :: build.modules.map ModuleDescription.path

theorem made (htree : build.toTree = .ok tree) (hregistrations : build.registrations
    = .ok registrations) : build.Made tree registrations :=
  ⟨(of_toTree htree).1, paths_toTree htree, module_registrations hregistrations⟩

namespace Made

/-- The paths of the tree mean themselves exactly if none of the listed ones ends in blank
characters. -/
theorem paths_self_iff (h : build.Made tree registrations) :
    (∀ path ∈ tree.paths, tree.resolve path = .ok path)
      ↔ ∀ description ∈ build.modules, Text.trim description.path = description.path := by
  constructor
  · intro hself description hmem
    have hlisted : description.path ∈ tree.paths :=
      h.paths.mem_iff.2 (List.mem_cons_of_mem _ (List.mem_map_of_mem hmem))
    exact (ModuleTree.resolve_self_iff h.built.wellKeyed hlisted).1 (hself _ hlisted)
  · intro htrim path hpath
    rw [ModuleTree.resolve_self_iff h.built.wellKeyed hpath]
    rcases List.mem_cons.1 (h.paths.mem_iff.1 hpath) with rfl | hmem
    · decide
    · obtain ⟨description, hdescription, rfl⟩ := List.mem_map.1 hmem
      exact htrim description hdescription

/-- Where the paths mean themselves, there is one registration for every module. -/
theorem each (h : build.Made tree registrations)
    (hself : ∀ path ∈ tree.paths, tree.resolve path = .ok path) :
    (registrations.map fun registration => tree.resolve registration.module).Perm
      (tree.paths.map .ok) := by
  have hmeant : registrations.map (fun registration => tree.resolve registration.module)
      = (registrations.map Registration.module).map Except.ok := by
    rw [List.map_map]
    refine List.map_congr_left ?_
    intro registration hmem
    refine hself _ (h.paths.mem_iff.2 ?_)
    rw [← h.modules]
    exact List.mem_map_of_mem hmem
  rw [hmeant, h.modules]
  exact (h.paths.map _).symm

end Made

/-- An accepted build whose dependencies are all resolved and whose paths end in no blank characters
runs its alignment in every order of its registrations. Nobody is told that a module is not there, is
ambiguous or has registered before. -/
theorem concludes_registerAll (htree : build.toTree = .ok tree)
    (hregistrations : build.registrations = .ok registrations)
    (hresolved : ∀ registration ∈ registrations, ∀ dependency ∈ registration.dependencies,
      dependency.resolved.isSome = true)
    (htrim : ∀ description ∈ build.modules, Text.trim description.path = description.path)
    {aligner : Aligner} {policy : BarrierPolicy} {barrier : Barrier}
    (opened : Barrier.Opened tree aligner policy barrier)
    (feasible : Barrier.Feasible barrier registrations) {order : List Registration}
    (horder : order.Perm registrations) :
    (∀ path ∈ tree.paths, tree.resolve path = .ok path) ∧
      ∃ status, (barrier.registerAll order).2
          = Barrier.countdown build.modules.length ++ [status] ∧ Barrier.Concludes status := by
  have hmade := made htree hregistrations
  have hself := hmade.paths_self_iff.2 htrim
  refine ⟨hself, ?_⟩
  have each : (order.map fun registration => tree.resolve registration.module).Perm
      (tree.paths.map .ok) := (horder.map _).trans (hmade.each hself)
  have hlength : order.length = build.modules.length + 1 := by
    have hmodules := congrArg List.length hmade.modules
    simp only [List.length_map, List.length_cons] at hmodules
    rw [horder.length_eq, hmodules]
  obtain ⟨status, hanswers, hconcludes⟩ := opened.concludes hmade.built hself each
    (fun registration hmem dependency hdependency hrejects => by
      have hsome := hresolved registration (horder.mem_iff.1 hmem) dependency hdependency
      rw [hrejects.2.1] at hsome
      cases hsome)
    (feasible.mono fun registration hmem => horder.mem_iff.1 hmem)
  rw [hlength] at hanswers
  exact ⟨status, hanswers, hconcludes⟩

/-- A build with a path that ends in blank characters is complete in no order of its registrations,
however often they come: nobody registers the module with this path. -/
theorem never_completes (htree : build.toTree = .ok tree)
    (hregistrations : build.registrations = .ok registrations)
    {description : ModuleDescription} (hlisted : description ∈ build.modules)
    (hblank : Text.trim description.path ≠ description.path)
    {aligner : Aligner} {policy : BarrierPolicy} {barrier : Barrier}
    (opened : Barrier.Opened tree aligner policy barrier) {calls : List Registration}
    (hcalls : ∀ registration ∈ calls, registration ∈ registrations) :
    description.path ∈ (barrier.registerAll calls).1.remaining ∧
      ∀ status ∈ (barrier.registerAll calls).2, ∀ handle, status ≠ .ok (.complete handle) := by
  have hmade := made htree hregistrations
  have hpath : description.path ∈ tree.paths :=
    hmade.paths.mem_iff.2 (List.mem_cons_of_mem _ (List.mem_map_of_mem hlisted))
  refine Barrier.registerAll_missing ?_ ?_
  · have ready := opened.ready hmade.built
    rw [ready.remaining, opened.eq]
    exact hpath
  · intro registration hmem meant hmeant heq
    rw [opened.tree_eq] at hmeant
    have hmodule : registration.module ∈ tree.paths := by
      rw [hmade.paths.mem_iff, ← hmade.modules]
      exact List.mem_map_of_mem (hcalls registration hmem)
    obtain ⟨keys, -, hkeys, -⟩ := hmade.built.wellKeyed.of_mem_paths hmodule
    have hpathlike := Option.isSome_of_eq_some hkeys
    -- What a path means is trimmed, and the path of the description is not.
    have htrimmed := ModuleTree.trim_eq_of_resolve hpathlike hmeant
    rw [heq] at htrimmed
    refine hblank ?_
    rw [htrimmed, Text.trim_trim]

end BuildDescription

namespace SmallBuild

/-- A description of the build, with a path for its module. -/
def described (path : String) : BuildDescription :=
  { root := { name := some "app", group := some "org.example", version := some "1.0" }
    modules := [{ path, name := some "core"
                  dependencies := [⟨"org.lib:base:1.+", some "org.lib:base:1.4"⟩] }] }

def handedIn (path : String) : List Registration :=
  [registrationOf ":" "app" [],
    registrationOf path "core" [⟨⟨"org.lib", "base", "1.+"⟩, some ⟨"org.lib", "base", "1.4"⟩⟩]]

def blankTree : ModuleTree :=
  .node (.new "app" "org.example") [("core ", .single (.new "core" "org.example"))]

def blankBarrier : Barrier :=
  { aligner, policy := {}, order := [":", ":core "], remaining := [":", ":core "]
    tree := blankTree }

theorem toTree_described : (described ":core").toTree = .ok tree := by
  rw [BuildDescription.toTree, BuildDescription.byDepth, described, List.mergeSort_singleton]
  rfl

theorem toTree_described_blank : (described ":core ").toTree = .ok blankTree := by
  rw [BuildDescription.toTree, BuildDescription.byDepth, described, List.mergeSort_singleton]
  rfl

theorem resolved_handedIn (path : String) : ∀ registration ∈ handedIn path,
    ∀ dependency ∈ registration.dependencies, dependency.resolved.isSome = true := by
  simp [handedIn, registrationOf]

theorem feasible_handedIn : Barrier.Feasible barrier (handedIn ":core") := by
  refine ⟨by decide, ?_, ?_⟩
  · intro ask hask asked versions hanswer entry hentry
    cases hask
    cases hanswer
    obtain ⟨coordinate, -, rfl⟩ := List.mem_map.1 hentry
    exact (show Version.Cuttable "2.0" by decide)
  · intro settings hmem
    cases hmem

end SmallBuild

namespace BuildDescription

open SmallBuild (described handedIn)

/-- The described build in the order in which the root comes last. -/
theorem concludes_of_described :
    (described ":core").toTree = .ok SmallBuild.tree ∧
      (described ":core").registrations = .ok (handedIn ":core") ∧
      Barrier.Feasible SmallBuild.barrier (handedIn ":core") ∧
      (∀ path ∈ SmallBuild.tree.paths, SmallBuild.tree.resolve path = .ok path) ∧
      ∃ status, (SmallBuild.barrier.registerAll (handedIn ":core").reverse).2
        = Barrier.countdown 1 ++ [status] ∧ Barrier.Concludes status := by
  have hregistrations : (described ":core").registrations = .ok (handedIn ":core") := by
    decide +kernel
  have htrim : ∀ description ∈ (described ":core").modules,
      Text.trim description.path = description.path := by decide
  exact ⟨SmallBuild.toTree_described, hregistrations, SmallBuild.feasible_handedIn,
    concludes_registerAll SmallBuild.toTree_described hregistrations
      (SmallBuild.resolved_handedIn _) htrim SmallBuild.opened SmallBuild.feasible_handedIn
      (List.reverse_perm _)⟩

/-- With a blank character behind its path the module is listed and cannot be registered, so the
described build is never complete. -/
theorem unreachable_of_blank_path :
    (described ":core ").toTree = .ok SmallBuild.blankTree ∧
      (described ":core ").registrations = .ok (handedIn ":core ") ∧
      (∀ registration ∈ handedIn ":core ", ∀ dependency ∈ registration.dependencies,
        dependency.resolved.isSome = true) ∧
      Barrier.Opened SmallBuild.blankTree SmallBuild.aligner {} SmallBuild.blankBarrier ∧
      ":core " ∈ SmallBuild.blankTree.paths ∧
      SmallBuild.blankTree.resolve ":core " ≠ .ok ":core " ∧
      ∃ suggestions, (SmallBuild.blankBarrier.registerAll (handedIn ":core ")).2 = [.ok (.pending 1),
        .error (.failed (.moduleNotFound ":core" suggestions))] := by
  refine ⟨SmallBuild.toTree_described_blank, by decide +kernel, SmallBuild.resolved_handedIn _,
    .new rfl, by decide +kernel, by decide +kernel, SmallBuild.blankTree.suggestions ":core", ?_⟩
  rfl

end BuildDescription

end BuildAlignment
