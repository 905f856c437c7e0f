import BuildAlignment.Coordinate
import BuildAlignment.Keyed
import BuildAlignment.ModulePath

/-!
# The module tree

The modules of a build, as a tree. Every module keeps its name and group, the versions it had and
has, and a replacement for each dependency that was aligned. This tree is what an alignment fills
in and leaves behind.

* `ModuleInfo` is what is kept for one module, `ModuleTree` the tree of them.
* `ModuleTree.nodes` lists all modules with the keys that lead to them, root first and depth first
  in key order. `paths` gives the same list as paths.
* `ModuleTree.locate?` goes down along keys, `ModuleTree.updateAt` changes what is found there.
* `ModuleTree.add` adds a module below an existing one.
-/

namespace BuildAlignment

/-- What is kept for one module. A replacement stands under the text form of the dependency as it
was declared. -/
structure ModuleInfo where
  name : String
  group : String
  version : Option String := none
  formerVersion : Option String := none
  aligned : Keyed Coordinate := []
  deriving DecidableEq, Repr

namespace ModuleInfo

/-- A module that nothing is known of but its name and group. -/
def new (name group : String) : ModuleInfo := { name, group }

def coordinate? (info : ModuleInfo) : Option Coordinate :=
  info.version.map fun version => ⟨info.group, info.name, version⟩

/-- Gives a module its version, which is done once. -/
def assignVersion (info : ModuleInfo) (version label : String) :
    Except AlignmentError ModuleInfo :=
  if info.version.isSome then .error (.versionAlreadyAssigned label)
  else .ok { info with version := some version }

def insertAligned (info : ModuleInfo) (declared replacement : Coordinate) : ModuleInfo :=
  { info with aligned := info.aligned.insert declared.display replacement }

/-- The replacement under a text form. -/
def aligned? (info : ModuleInfo) (declared : String) : Option Coordinate :=
  info.aligned.find? declared

end ModuleInfo

/-- A module with the modules below it, in ascending order of their keys. -/
inductive ModuleTree where
  | node (info : ModuleInfo) (children : List (String × ModuleTree))

namespace ModuleTree

def info : ModuleTree → ModuleInfo
  | node info _ => info

def children : ModuleTree → Keyed ModuleTree
  | node _ children => children

def single (info : ModuleInfo) : ModuleTree := node info []

/-! ### All modules -/

mutual

/-- All modules with the keys that lead to them, each module before those below it. -/
def nodes : ModuleTree → List (List String × ModuleInfo)
  | node info children => ([], info) :: childNodes children

/-- The modules of some subtrees, each behind the key of its subtree. -/
def childNodes : List (String × ModuleTree) → List (List String × ModuleInfo)
  | [] => []
  | (key, child) :: rest =>
    (nodes child).map (fun entry => (key :: entry.1, entry.2)) ++ childNodes rest

end

/-- The paths of all modules, root first. -/
def paths (tree : ModuleTree) : List String :=
  tree.nodes.map fun entry => ModulePath.ofKeys entry.1

theorem paths_eq_cons (tree : ModuleTree) : ∃ rest, tree.paths = ModulePath.root :: rest := by
  cases tree with
  | node info children => exact ⟨_, rfl⟩

/-! ### One module -/

/-- The subtree at the end of some keys. -/
def locate? : List String → ModuleTree → Option ModuleTree
  | [], tree => some tree
  | key :: keys, node _ children =>
    match Keyed.find? key children with
    | some child => locate? keys child
    | none => none

def locatePath? (path : String) (tree : ModuleTree) : Option ModuleTree :=
  match ModulePath.segments? path with
  | some keys => tree.locate? keys
  | none => none

/-- Changes what is kept for the module at the end of some keys. -/
def updateAt (change : ModuleInfo → ModuleInfo) : List String → ModuleTree → ModuleTree
  | [], node info children => node (change info) children
  | key :: keys, node info children =>
    node info <| children.map fun entry =>
      if entry.1 = key then (entry.1, updateAt change keys entry.2) else entry

/-- Puts a subtree below the module at the end of some keys. -/
def insertBelow (key : String) (child : ModuleTree) : List String → ModuleTree → ModuleTree
  | [], node info children => node info (Keyed.insert key child children)
  | step :: steps, node info children =>
    node info <| children.map fun entry =>
      if entry.1 = step then (entry.1, insertBelow key child steps entry.2) else entry

/-- Adds a module at a path. The path has to start at the root, must not name the root, has no
empty segment, leads through modules that are there, and is free. -/
def add (path : String) (info : ModuleInfo) (tree : ModuleTree) :
    Except AlignmentError ModuleTree :=
  let invalid (problem : PathProblem) : Except AlignmentError ModuleTree :=
    .error (.invalidPath path problem)
  match ModulePath.segments? path with
  | none => invalid .notFromRoot
  | some keys =>
    match keys.getLast? with
    | none => invalid .rootExists
    | some last =>
      if keys.contains "" then invalid .emptySegment
      else match tree.locate? keys.dropLast with
        | none => invalid (.noParent keys.dropLast)
        | some parent =>
          if (Keyed.find? last parent.children).isSome then invalid .occupied
          else .ok (insertBelow last (single info) keys.dropLast tree)

end ModuleTree

end BuildAlignment
