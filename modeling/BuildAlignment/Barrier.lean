import BuildAlignment.Alignment.Aligner
import BuildAlignment.Barrier.Staging

/-!
# The registration barrier

The modules of a build register in any order, each on its own. The registration that completes the
set aligns the whole build, and the tree is published in one step or not at all.

A registration takes up to three steps, and between them other registrations may come in.

* `Barrier.enter` checks a registration and stores it.
* `Barrier.publish` aligns the stored registrations and writes the tree.
* `Barrier.settle` records how that went.
* `Barrier.register` is the three of them in a row.
* `Barrier.finishedModel` and `Barrier.finishedHandle` tell the result.
-/

namespace BuildAlignment

structure AlignmentHandle where
  newProjectVersion : String
  skipped : Bool
  nonAligned : Keyed (List Coordinate)
  deriving DecidableEq, Repr

inductive RegistrationStatus where
  | pending (remaining : Nat)
  | complete (handle : AlignmentHandle)
  deriving DecidableEq, Repr

inductive Phase where
  | collecting
  | aligning
  | completed (handle : AlignmentHandle)
  | failed (error : AlignmentError)
  deriving DecidableEq, Repr

structure Barrier where
  aligner : Aligner
  /-- The module versions stand under paths. -/
  policy : BarrierPolicy
  recorded : Recorded := []
  /-- The paths of the modules, in the order in which they are aligned. -/
  order : List String
  /-- The paths that have not registered, once each. -/
  remaining : List String
  /-- The accepted registrations, in order of arrival. -/
  registered : List Registered := []
  phase : Phase := .collecting
  tree : ModuleTree
  /-- The lists that the authority has been asked about. -/
  asked : List (List Coordinate) := []

namespace Barrier

/-! ### Setting up -/

/-- The module versions of a policy under the paths that their keys mean. Of two keys for one
module the later one counts. -/
def resolveVersions (tree : ModuleTree) (versions : Keyed String) :
    Except AlignmentError (Keyed String) :=
  versions.foldlM (fun resolved entry =>
    (tree.resolve entry.1).map fun path => resolved.insert path entry.2) []

def new (tree : ModuleTree) (aligner : Aligner) (policy : BarrierPolicy) :
    Except AlignmentError Barrier :=
  (resolveVersions tree policy.moduleVersions).map fun moduleVersions =>
    { aligner
      policy := { policy with moduleVersions }
      order := tree.paths
      remaining := tree.paths.eraseDups
      tree }

def recordedOf (tree : ModuleTree) : Recorded :=
  Keyed.ofEntries <| tree.paths.filterMap fun path =>
    match tree.find path with
    | .ok found =>
      if found.info.aligned.isEmpty then none else some (path, found.info.aligned)
    | .error _ => none

def withPrevious (barrier : Barrier) (previous : ModuleTree) : Barrier :=
  { barrier with recorded := recordedOf previous }

/-! ### Checking and storing -/

/-- What becomes of a registration when it comes in. -/
inductive Entry where
  | refused (error : AlignmentError)
  | waiting (remaining : Nat)
  /-- It was the last one, and these are the registrations in path order. -/
  | last (modules : List Registered)

def registration? (barrier : Barrier) (path : String) : Option Registration :=
  (barrier.registered.find? fun entry => entry.1 == path).map Prod.snd

/-- The accepted registrations in path order, once each. -/
def inOrder (barrier : Barrier) : List Registered :=
  barrier.order.eraseDups.filterMap fun path =>
    (barrier.registration? path).map fun registration => (path, registration)

def store (barrier : Barrier) (path : String) (registration : Registration) : Barrier :=
  { barrier with
    remaining := barrier.remaining.erase path
    registered := barrier.registered ++ [(path, registration)] }

/-- Stores a registration, and starts to align when it was the last. -/
def accept (barrier : Barrier) (path : String) (registration : Registration) : Barrier × Entry :=
  let stored := barrier.store path registration
  if stored.remaining.isEmpty then
    ({ stored with phase := .aligning }, .last stored.inOrder)
  else (stored, .waiting stored.remaining.length)

def enterAt (barrier : Barrier) (path : String) (registration : Registration) : Barrier × Entry :=
  match barrier.phase with
  | .failed error => (barrier, .refused error.restate)
  | .aligning => (barrier, .refused .alreadyPerformed)
  | .completed _ => (barrier, .refused .alreadyPerformed)
  | .collecting =>
    if (barrier.registration? path).isSome then
      (barrier, .refused (.duplicateRegistration path))
    else
      match registration.admitted barrier.policy (barrier.recorded.at path) path with
      | .error error => ({ barrier with phase := .failed error.restate }, .refused error)
      | .ok admitted => barrier.accept path admitted

/-- Checks a registration and stores it. A module that is not known changes nothing, and neither
does one that has registered. A dependency that may not be unresolved fails the whole build. -/
def enter (barrier : Barrier) (registration : Registration) : Barrier × Entry :=
  match barrier.tree.resolve registration.module with
  | .error error => (barrier, .refused error)
  | .ok path => barrier.enterAt path registration

/-! ### Aligning and publishing -/

/-- The response with what was seeded pinned to it. A skipped alignment pins nothing. -/
def pinSeeded (barrier : Barrier) (modules : List Registered) (alignment : Alignment) : Response :=
  alignment.response.pin (seededCoordinates barrier.recorded modules)

def stageResponse (barrier : Barrier) (modules : List Registered) (request : Request)
    (response : Response) (skipped : Bool) :
    Except AlignmentError (ModuleTree × AlignmentHandle) :=
  let newVersion := response.newProjectVersion.getD request.projectVersion
  let staging : Staging :=
    { policy := barrier.policy
      response
      newVersion
      declaredVersions := modules.map fun entry => (entry.1, entry.2.coordinate.version) }
  (stage staging request barrier.tree).map fun tree =>
    (tree, { newProjectVersion := newVersion, skipped
             nonAligned := staging.nonAligned request.modules })

/-- The tree and the handle of an outcome. -/
def finish (barrier : Barrier) (modules : List Registered) :
    AlignmentOutcome → Except Stop (ModuleTree × AlignmentHandle)
  | .failed error => .error (.failed error)
  | .aborted => .error .aborted
  | .skipped alignment =>
    (barrier.stageResponse modules alignment.request alignment.response true).mapError .failed
  | .aligned alignment =>
    (barrier.stageResponse modules alignment.request (barrier.pinSeeded modules alignment)
      false).mapError .failed

/-- Aligns the registrations of a build. The tree is replaced when all went well, and stays as it
is otherwise. -/
def publish (barrier : Barrier) (modules : List Registered) :
    Barrier × Except Stop AlignmentHandle :=
  match combinedRequest barrier.policy modules with
  | .error stop => (barrier, .error stop)
  | .ok request =>
    let run := barrier.aligner.align request
    let asked := { barrier with asked := barrier.asked ++ run.asked.toList }
    match barrier.finish modules run.outcome with
    | .error stop => (asked, .error stop)
    | .ok (tree, handle) => ({ asked with tree }, .ok handle)

/-! ### Settling -/

/-- Records how an alignment went. One that was given up leaves the barrier where it is. -/
def settle (barrier : Barrier) :
    Except Stop AlignmentHandle → Barrier × Except Stop RegistrationStatus
  | .ok handle => ({ barrier with phase := .completed handle }, .ok (.complete handle))
  | .error (.failed error) =>
    ({ barrier with phase := .failed error.restate }, .error (.failed error))
  | .error .aborted => (barrier, .error .aborted)

def register (barrier : Barrier) (registration : Registration) :
    Barrier × Except Stop RegistrationStatus :=
  match barrier.enter registration with
  | (entered, .refused error) => (entered, .error (.failed error))
  | (entered, .waiting remaining) => (entered, .ok (.pending remaining))
  | (entered, .last modules) =>
    let (published, result) := entered.publish modules
    published.settle result

/-- Registers modules one after another, with the answer to each. -/
def registerAll (barrier : Barrier) :
    List Registration → Barrier × List (Except Stop RegistrationStatus)
  | [] => (barrier, [])
  | registration :: rest =>
    let (next, status) := barrier.register registration
    let (final, statuses) := next.registerAll rest
    (final, status :: statuses)

/-! ### Results -/

def isComplete (barrier : Barrier) : Bool :=
  match barrier.phase with
  | .completed _ => true
  | _ => false

def finishedHandle (barrier : Barrier) : Except AlignmentError AlignmentHandle :=
  match barrier.phase with
  | .completed handle => .ok handle
  | .failed error => .error error.restate
  | .collecting => .error (.pending barrier.remaining.length)
  | .aligning => .error (.pending barrier.remaining.length)

def finishedModel (barrier : Barrier) : Except AlignmentError ModuleTree :=
  barrier.finishedHandle.map fun _ => barrier.tree

end Barrier

end BuildAlignment
