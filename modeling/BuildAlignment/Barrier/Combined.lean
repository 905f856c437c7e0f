import BuildAlignment.Barrier.Registration

/-!
# The combined request

All registrations of a build become one request.

* `Registered` is a registration under the path of its module.
* `combinedRequest` builds the request of a list of registrations in path order.
* `seededCoordinates` lists what was taken over from an earlier alignment.
-/

namespace BuildAlignment

abbrev Registered := String × Registration

def internalRefs (modules : List Registered) : List ArtifactRef :=
  modules.map fun entry => entry.2.coordinate.ref

/-- The coordinate of a project in a request, mostly without its snapshot marker. -/
def projectCoordinate? (policy : BarrierPolicy) (coordinate : Coordinate) : Option Coordinate :=
  if policy.preserveSnapshot then some coordinate
  else (Version.stripSnapshot? coordinate.version).map coordinate.withVersion

/-- The coordinates of the modules that stand for projects of their own. -/
def projectCoordinates? (policy : BarrierPolicy) (modules : List Registered) :
    Option (List Coordinate) :=
  (modules.filter fun entry => entry.2.isFullyDefined).mapM fun entry =>
    projectCoordinate? policy entry.2.coordinate

/-- The first version that says something. -/
def projectVersion? (modules : List Registered) : Option String :=
  (modules.map fun entry => entry.2.coordinate.version).find? fun version =>
    !Version.isUnspecified version

/-- The request of a module, without the dependencies that the build itself makes. -/
def moduleRequest (internal : List ArtifactRef) (entry : Registered) : ModuleRequest :=
  { path := entry.1
    owner := entry.2.coordinate
    dependencies := entry.2.dependencies.filter fun dependency =>
      !internal.contains dependency.declared.ref }

/-- The request of all modules. Some module has to have a version. -/
def combinedRequest (policy : BarrierPolicy) (modules : List Registered) : Except Stop Request :=
  match projectCoordinates? policy modules with
  | none => .error .aborted
  | some projects =>
    match projectVersion? modules with
    | none => .error (.failed (.configuration .noVersion))
    | some projectVersion =>
      .ok ⟨projects, projectVersion, modules.map (moduleRequest (internalRefs modules))⟩

/-- What an earlier alignment recorded, by module path and by declared dependency. -/
abbrev Recorded := Keyed (Keyed Coordinate)

def Recorded.at (recorded : Recorded) (path : String) : Keyed Coordinate :=
  (recorded.find? path).getD []

/-- The resolved coordinates that are those of an earlier alignment. -/
def seededCoordinates (recorded : Recorded) (modules : List Registered) : List Coordinate :=
  modules.flatMap fun entry =>
    (entry.2.dependencies.filter fun dependency =>
      dependency.isRecorded (recorded.at entry.1)).filterMap Dependency.resolved

end BuildAlignment
