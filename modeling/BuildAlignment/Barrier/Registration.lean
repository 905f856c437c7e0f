import BuildAlignment.Alignment.Request
import BuildAlignment.Keyed

/-!
# Registrations

Every module of a build registers once, with its coordinate and its dependencies.

* `Registration` is what a module hands in.
* `BarrierPolicy` says what is done with it.
* `Registration.admitted` keeps the dependencies that take part, seeded from an earlier alignment.
-/

namespace BuildAlignment

/-- What a module hands in. The module is named by a path or a name. -/
structure Registration where
  module : String
  coordinate : Coordinate
  dependencies : List Dependency
  deriving DecidableEq, Repr

/-- A registration stands for a project of its own when its group and its version say something. -/
def Registration.isFullyDefined (registration : Registration) : Bool :=
  !Text.isBlank registration.coordinate.group
    && !Version.isUnspecified registration.coordinate.version

structure BarrierPolicy where
  ignoreUnresolvable : Bool := false
  versionModification : Bool := true
  preserveSnapshot : Bool := false
  moduleVersions : Keyed String := []
  deriving DecidableEq, Repr

namespace Dependency

/-- Takes over what an earlier alignment recorded for the declared form, where that is another
version than the resolved one. -/
def seed (recorded : Keyed Coordinate) (dependency : Dependency) : Dependency :=
  match recorded.find? dependency.declared.display, dependency.resolved with
  | some earlier, some resolved =>
    if earlier.version = resolved.version then dependency
    else { dependency with resolved := some earlier }
  | _, _ => dependency

/-- Whether a dependency resolves to what an earlier alignment recorded for it. -/
def isRecorded (recorded : Keyed Coordinate) (dependency : Dependency) : Bool :=
  dependency.resolved.isSome &&
    recorded.find? dependency.declared.display == dependency.resolved

theorem declared_seed (recorded : Keyed Coordinate) (dependency : Dependency) :
    (dependency.seed recorded).declared = dependency.declared := by
  unfold seed
  split
  · split <;> rfl
  · rfl

end Dependency

/-- The dependencies that take part, in order. One with a blank group is left out. One that could
not be resolved is left out or refused. Every other one is seeded. -/
def admitDependencies (policy : BarrierPolicy) (recorded : Keyed Coordinate) (path : String) :
    List Dependency → Except AlignmentError (List Dependency)
  | [] => .ok []
  | dependency :: rest =>
    if Text.isBlank dependency.declared.group then admitDependencies policy recorded path rest
    else if dependency.resolved.isNone then
      if policy.ignoreUnresolvable then admitDependencies policy recorded path rest
      else .error (.unresolvableDependency path dependency.declared.display)
    else (admitDependencies policy recorded path rest).map (dependency.seed recorded :: ·)

def Registration.admitted (policy : BarrierPolicy) (recorded : Keyed Coordinate) (path : String)
    (registration : Registration) : Except AlignmentError Registration :=
  (admitDependencies policy recorded path registration.dependencies).map fun dependencies =>
    { registration with dependencies }

end BuildAlignment
