import BuildAlignment.Coordinate
import BuildAlignment.Version.Kind

/-!
# Alignment requests

One request holds the dependencies of all modules of a build.

* `Dependency` is a dependency as it was declared and as it was resolved.
* `ModuleRequest` holds the dependencies of a module, `Request` those of all modules with the
  coordinates of the build itself.
* `Request.authorityCoordinates` is the list that an authority is asked about.
-/

namespace BuildAlignment

/-- A dependency of a module. Without a resolved coordinate it could not be resolved. -/
structure Dependency where
  declared : Coordinate
  resolved : Option Coordinate
  deriving DecidableEq, Repr

namespace Dependency

def exact (coordinate : Coordinate) : Dependency := ⟨coordinate, some coordinate⟩

/-- A dependency whose declared version names no fixed release. -/
def isDynamic (dependency : Dependency) : Bool :=
  Version.isDynamic dependency.declared.version

end Dependency

structure ModuleRequest where
  path : String
  owner : Coordinate
  dependencies : List Dependency
  deriving DecidableEq, Repr

/-- The resolved coordinates of a module, in order of declaration. -/
def ModuleRequest.resolved (request : ModuleRequest) : List Coordinate :=
  request.dependencies.filterMap Dependency.resolved

structure Request where
  projects : List Coordinate
  projectVersion : String
  modules : List ModuleRequest
  deriving DecidableEq, Repr

namespace Request

/-- Every resolved coordinate, once each, by first occurrence. -/
def dependencyCoordinates (request : Request) : List Coordinate :=
  (request.modules.flatMap ModuleRequest.resolved).eraseDups

/-- The coordinates of the build and then those of its dependencies, once each. -/
def authorityCoordinates (request : Request) : List Coordinate :=
  (request.projects ++ request.dependencyCoordinates).eraseDups

def dynamicCoordinates (request : Request) : List Coordinate :=
  ((request.modules.flatMap fun entry =>
    entry.dependencies.filter Dependency.isDynamic).filterMap Dependency.resolved).eraseDups

def moduleRefs (request : Request) : List ArtifactRef :=
  (request.modules.map fun entry => entry.owner.ref).eraseDups

def dependencyCount (request : Request) : Nat :=
  (request.modules.flatMap ModuleRequest.dependencies).length

end Request

end BuildAlignment
