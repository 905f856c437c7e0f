import BuildAlignment.Proofs.Barrier.Session
import BuildAlignment.Proofs.ModuleTree.Location

/-!
# What an earlier alignment recorded

A barrier may be seeded with the tree of an earlier alignment. It then knows the replacements of
every module by its path.

* `Barrier.seededWith` seeds a barrier with an earlier tree, if there is one.
* `ModuleTree.recorded?` is the replacement that a tree holds at a path, and `ModuleTree.told?` the
  one that is found when the path is looked up.
* `Barrier.find?_recorded_told`: a seeded barrier knows what the earlier tree tells. By
  `Barrier.find?_recorded_seededWith` this is what the tree holds, if its paths mean themselves.
* `Dependency.seed_eq`: a seeded dependency is resolved to what was recorded, if that has another
  version.
-/

namespace BuildAlignment

namespace ModuleTree

variable {tree : ModuleTree} {path : String} {keys : List String}

theorem find_eq_locate? (hself : tree.resolve path = .ok path)
    (hkeys : ModulePath.segments? path = some keys) :
    (tree.find path).toOption = tree.locate? keys := by
  have hread : tree.keysOf path
      = if (tree.locate? keys).isSome then .ok keys else .error (tree.notFound path) := by
    simp only [keysOf, hself, hkeys, Option.getD_some]
  rw [find, hread]
  cases hlocated : tree.locate? keys with
  | none => rfl
  | some found => simp [hlocated, Except.toOption]

/-- The replacement that a tree holds at a path for a declared dependency. -/
def recorded? (tree : ModuleTree) (path : String) (declared : Coordinate) : Option Coordinate :=
  (tree.locatePath? path).bind fun found => found.info.aligned? declared.display

/-- The replacement that a tree tells at a path for a declared dependency. The path has to be one of
its own, and what counts is the module that the path means. -/
def told? (tree : ModuleTree) (path : String) (declared : Coordinate) : Option Coordinate :=
  if path ∈ tree.paths then
    (tree.find path).toOption.bind fun found => found.info.aligned? declared.display
  else none

/-- Where the paths of a tree mean themselves, it tells what it holds. -/
theorem told?_eq_recorded? (hself : ∀ path ∈ tree.paths, tree.resolve path = .ok path)
    (hkeys : ModulePath.segments? path = some keys) (hpath : ModulePath.ofKeys keys = path)
    (declared : Coordinate) : tree.told? path declared = tree.recorded? path declared := by
  have hlocated : tree.locatePath? path = tree.locate? keys := by
    simp only [locatePath?, hkeys]
  rw [told?, recorded?, hlocated]
  by_cases hmem : path ∈ tree.paths
  · rw [if_pos hmem, find_eq_locate? (hself path hmem) hkeys]
  · -- A path that is not listed leads nowhere.
    have hnone : tree.locate? keys = none := by
      cases hfound : tree.locate? keys with
      | none => rfl
      | some found =>
        have hlisted := mem_paths_of_locate? (Option.isSome_of_eq_some hfound)
        rw [hpath] at hlisted
        exact absurd hlisted hmem
    rw [if_neg hmem, hnone]
    rfl

end ModuleTree

namespace Barrier

/-- The replacements that are recorded for a path, if there are any. -/
def replacementsAt? (tree : ModuleTree) (path : String) : Option (Keyed Coordinate) :=
  (tree.find path).toOption.bind fun found =>
    if found.info.aligned.isEmpty then none else some found.info.aligned

theorem recordedOf_eq (tree : ModuleTree) :
    recordedOf tree = Keyed.ofEntries (tree.paths.filterMap fun path =>
      (replacementsAt? tree path).map fun aligned => (path, aligned)) := by
  rw [recordedOf]
  refine congrArg (fun record => Keyed.ofEntries (tree.paths.filterMap record)) ?_
  funext path
  rw [replacementsAt?]
  cases tree.find path with
  | error error => rfl
  | ok found =>
    simp only [Except.toOption, Option.bind_some]
    split
    · rfl
    · rfl

theorem find?_recordedOf (tree : ModuleTree) (path : String) (declared : Coordinate) :
    ((recordedOf tree).at path).find? declared.display = tree.told? path declared := by
  rw [Recorded.at, recordedOf_eq, Keyed.find?_ofEntries_filterMap, ModuleTree.told?]
  split
  · rw [replacementsAt?]
    cases (tree.find path).toOption with
    | none => rfl
    | some found =>
      simp only [Option.bind_some]
      split
      · rename_i hempty
        rw [ModuleInfo.aligned?, List.isEmpty_iff.1 hempty]
        rfl
      · rfl
  · rfl

/-! ### Seeding -/

/-- A barrier seeded with the tree of an earlier alignment, if there is one. -/
def seededWith (barrier : Barrier) : Option ModuleTree → Barrier
  | none => barrier
  | some previous => barrier.withPrevious previous

variable {tree : ModuleTree} {aligner : Aligner} {policy : BarrierPolicy} {fresh : Barrier}

theorem opened_seededWith (made : Barrier.new tree aligner policy = .ok fresh)
    (previous : Option ModuleTree) : Opened tree aligner policy (fresh.seededWith previous) := by
  cases previous with
  | none => exact .new made
  | some earlier => exact .seeded earlier (.new made)

theorem recorded_of_new (made : Barrier.new tree aligner policy = .ok fresh) :
    fresh.recorded = [] := by
  rw [Barrier.new] at made
  cases hversions : resolveVersions tree policy.moduleVersions with
  | error error =>
    rw [hversions] at made
    cases made
  | ok versions =>
    rw [hversions] at made
    cases made
    rfl

/-- A seeded barrier knows what the earlier tree tells. -/
theorem find?_recorded_told (made : Barrier.new tree aligner policy = .ok fresh)
    (previous : Option ModuleTree) (path : String) (declared : Coordinate) :
    ((fresh.seededWith previous).recorded.at path).find? declared.display
      = previous.bind fun earlier => earlier.told? path declared := by
  cases previous with
  | none =>
    rw [seededWith, recorded_of_new made]
    rfl
  | some earlier => exact find?_recordedOf earlier path declared

/-- A seeded barrier knows what the earlier tree holds. -/
theorem find?_recorded_seededWith (made : Barrier.new tree aligner policy = .ok fresh)
    {previous : Option ModuleTree}
    (hself : ∀ earlier ∈ previous, ∀ path ∈ earlier.paths, earlier.resolve path = .ok path)
    {path : String} {keys : List String} (hkeys : ModulePath.segments? path = some keys)
    (hpath : ModulePath.ofKeys keys = path) (declared : Coordinate) :
    ((fresh.seededWith previous).recorded.at path).find? declared.display
      = previous.bind fun earlier => earlier.recorded? path declared := by
  rw [find?_recorded_told made]
  cases previous with
  | none => rfl
  | some earlier => exact ModuleTree.told?_eq_recorded? (hself earlier rfl) hkeys hpath declared

end Barrier

/-! ### Seeded dependencies -/

/-- What a resolved dependency comes to when this was recorded for it: the recorded coordinate, if
it has another version. -/
def Coordinate.renewed (resolved : Coordinate) : Option Coordinate → Coordinate
  | none => resolved
  | some earlier => if earlier.version = resolved.version then resolved else earlier

/-- A seeded dependency is the same declaration, resolved to what it comes to. -/
theorem Dependency.seed_eq (recorded : Keyed Coordinate) (dependency : Dependency) :
    dependency.seed recorded = { dependency with
      resolved := dependency.resolved.map fun resolved =>
        resolved.renewed (recorded.find? dependency.declared.display) } := by
  obtain ⟨declared, resolved⟩ := dependency
  rw [seed]
  cases resolved with
  | none =>
    cases recorded.find? declared.display with
    | none => rfl
    | some earlier => rfl
  | some resolved =>
    cases recorded.find? declared.display with
    | none => rfl
    | some earlier =>
      simp only [Option.map_some, Coordinate.renewed]
      split
      · rfl
      · rfl

end BuildAlignment
