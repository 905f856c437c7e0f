import BuildAlignment.Alignment.Response
import BuildAlignment.Barrier.Combined
import BuildAlignment.ModuleTree.Lookup

/-!
# Writing an alignment into the tree

The response to the combined request is written into a copy of the tree, module by module.

* `commonGroup` is the longest start that groups have in common, for a root without a group.
* `stageInfo` fills in one module, `stageModules` all of them.
* `stage` fills in the whole tree and collects what was not aligned.
-/

namespace BuildAlignment

/-- The segments that two lists begin with alike. -/
def sharedStart : List String → List String → List String
  | a :: as, b :: bs => if a = b then a :: sharedStart as bs else []
  | _, _ => []

/-- The longest start of whole dot-separated segments that all groups have. -/
def commonGroup : List String → String
  | [] => ""
  | group :: groups =>
    String.intercalate "." <|
      groups.foldl (fun shared other => sharedStart shared (Text.fields '.' other))
        (Text.fields '.' group)

structure Staging where
  policy : BarrierPolicy
  response : Response
  newVersion : String
  declaredVersions : List (String × String)

namespace Staging

def declaredVersion (staging : Staging) (path : String) : String :=
  ((staging.declaredVersions.find? fun entry => entry.1 == path).map Prod.snd).getD ""

/-- The version that the module at a path gets, if it gets one. -/
def assignedVersion? (staging : Staging) (path : String) : Option String :=
  if staging.policy.versionModification then
    some ((staging.policy.moduleVersions.find? path).getD staging.newVersion)
  else if Version.isUnspecified (staging.declaredVersion path) then none
  else some (staging.declaredVersion path)

/-- Keeps the declared version of a module, if it says something. -/
def keepDeclared (staging : Staging) (path : String) (info : ModuleInfo) : ModuleInfo :=
  if Version.isUnspecified (staging.declaredVersion path) then info
  else { info with formerVersion := some (staging.declaredVersion path) }

def assign (staging : Staging) (path : String) (info : ModuleInfo) :
    Except AlignmentError ModuleInfo :=
  match staging.assignedVersion? path with
  | some version => info.assignVersion version path
  | none => .ok info

/-- Writes one dependency. A dynamic one is set to what it resolved to, and one with an aligned
version to that version. -/
def writeDependency (staging : Staging) (owner : Coordinate) (info : ModuleInfo)
    (dependency : Dependency) : ModuleInfo :=
  match dependency.resolved with
  | none => info
  | some resolved =>
    let settled :=
      if dependency.isDynamic then info.insertAligned dependency.declared resolved else info
    match staging.response.alignedVersion? resolved owner with
    | some version => settled.insertAligned dependency.declared (resolved.withVersion version)
    | none => settled

/-- The resolved coordinates that got no aligned version. -/
def missing (staging : Staging) (request : ModuleRequest) : List Coordinate :=
  request.resolved.filter fun resolved =>
    (staging.response.alignedVersion? resolved request.owner).isNone

def stageInfo (staging : Staging) (request : ModuleRequest) (info : ModuleInfo) :
    Except AlignmentError ModuleInfo :=
  (staging.assign request.path (staging.keepDeclared request.path info)).map fun assigned =>
    request.dependencies.foldl (staging.writeDependency request.owner) assigned

def stageModule (staging : Staging) (tree : ModuleTree) (request : ModuleRequest) :
    Except AlignmentError ModuleTree :=
  tree.change request.path (staging.stageInfo request)

def stageModules (staging : Staging) (requests : List ModuleRequest) (tree : ModuleTree) :
    Except AlignmentError ModuleTree :=
  requests.foldlM staging.stageModule tree

/-- What was not aligned, by path. A module without such dependencies is left out. -/
def nonAligned (staging : Staging) (requests : List ModuleRequest) : Keyed (List Coordinate) :=
  Keyed.ofEntries <|
    (requests.map fun request => (request.path, staging.missing request)).filter fun entry =>
      !entry.2.isEmpty

end Staging

def stageRoot (projectVersion : String) (tree : ModuleTree) : Except AlignmentError ModuleTree :=
  let started := tree.updateAt (fun info =>
    { info with formerVersion := some projectVersion }) []
  if Text.isBlank tree.info.group then
    let groups := (tree.children.map fun entry => entry.2.info.group).filter fun group =>
      !Text.isBlank group
    let shared := commonGroup groups
    if shared = "" then .error (.configuration .noRootGroup)
    else .ok (started.updateAt (fun info => { info with group := shared }) [])
  else .ok started

def stage (staging : Staging) (request : Request) (tree : ModuleTree) :
    Except AlignmentError ModuleTree :=
  match stageRoot request.projectVersion tree with
  | .error error => .error error
  | .ok started => staging.stageModules request.modules started

end BuildAlignment
