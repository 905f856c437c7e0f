import BuildAlignment.Files

/-!
# File trees

Files and directories as a value. Locations start from a home directory, which lies two steps below
the root.

* `FileTree` holds files and directories by the steps that lead to them from the root.
* `FileTree.walk` follows a location to the steps it means.
* `FileTree.entry` finds the directory and the name under which something can be made.
* `FileTree.files` are the operations on a tree.
-/

namespace BuildAlignment

inductive FileNode where
  | file (content : String)
  | directory
  deriving DecidableEq, Repr

/-- Files and directories by their steps from the root. -/
structure FileTree where
  nodes : List (List String × FileNode) := []
  deriving DecidableEq, Repr

namespace FileTree

/-- The directory that locations start from. Its steps have no names, so no location leads to it from
outside. -/
def home : List String := ["", ""]

def node? (tree : FileTree) (steps : List String) : Option FileNode :=
  if steps.isPrefixOf home then some .directory
  else (tree.nodes.find? fun entry => entry.1 == steps).map Prod.snd

def put (tree : FileTree) (steps : List String) (node : FileNode) : FileTree :=
  if (tree.node? steps).isSome then
    ⟨tree.nodes.map fun entry => if entry.1 == steps then (steps, node) else entry⟩
  else ⟨tree.nodes ++ [(steps, node)]⟩

def remove (tree : FileTree) (steps : List String) : FileTree :=
  ⟨tree.nodes.filter fun entry => entry.1 != steps⟩

def texts (tree : FileTree) : List (String × String) :=
  tree.nodes.filterMap fun entry =>
    match home.isPrefixOf? entry.1, entry.2 with
    | some steps, .file content => some (String.intercalate "/" steps, content)
    | _, _ => none

/-! ### Following locations -/

def stepsOf (location : String) : List String :=
  (Files.Location.reversedSteps location).reverse

def longestName : Nat := 255

def longestLocation : Nat := 4095

/-- What is wrong with a location whatever the tree holds. -/
def faultOf? (location : String) : Option FileError :=
  if location.toList.contains '\x00' then some .nulInName
  else if location = "" then some .missing
  else if longestLocation < location.utf8ByteSize then some .nameTooLong
  else none

def start (location : String) : List String :=
  if Files.Location.isAbsolute location then [] else home

/-- Goes on by one step, for which there has to be a directory. What it leads to may be missing. -/
def enter (tree : FileTree) (current : List String) (step : String) :
    Except FileError (List String) :=
  match tree.node? current with
  | none => .error .missing
  | some (.file _) => .error .notDirectory
  | some .directory =>
    if step = "" ∨ step = "." then .ok current
    else if step = ".." then .ok current.dropLast
    else if longestName < step.utf8ByteSize then .error .nameTooLong
    else .ok (current ++ [step])

def walk (tree : FileTree) (current : List String) : List String → Except FileError (List String)
  | [] => .ok current
  | step :: rest =>
    match tree.enter current step with
    | .ok next => tree.walk next rest
    | .error error => .error error

def locate (tree : FileTree) (location : String) : Except FileError (List String) :=
  match faultOf? location with
  | some fault => .error fault
  | none => tree.walk (start location) (stepsOf location)

def nodeAt? (tree : FileTree) (location : String) : Option FileNode :=
  match tree.locate location with
  | .ok steps => tree.node? steps
  | .error _ => none

/-- A directory with the last step of a location, and whether slashes follow it. -/
structure Entry where
  directory : List String
  name : String
  hasSlash : Bool
  deriving DecidableEq, Repr

/-- Whether the last step is a name, and no way to the directory itself or to what holds it. -/
def Entry.isNamed (entry : Entry) : Bool :=
  entry.name != "" && entry.name != "." && entry.name != ".."

/-- Follows a location up to its last step. -/
def entry (tree : FileTree) (location : String) : Except FileError Entry :=
  let reversed := Files.Location.reversedSteps location
  let hasSlash := reversed.head? == some ""
  match faultOf? location, reversed.dropWhile (· == "") with
  | some fault, _ => .error fault
  | none, [] => .ok ⟨[], "", hasSlash⟩
  | none, name :: before =>
    match tree.walk (start location) (before.reverse ++ ["."]) with
    | .ok directory => .ok ⟨directory, name, hasSlash⟩
    | .error error => .error error

def steps (tree : FileTree) (entry : Entry) : Except FileError (List String) :=
  tree.enter entry.directory entry.name

/-! ### Operations -/

def readText (tree : FileTree) (location : String) : Except FileError String :=
  match tree.locate location with
  | .error error => .error error
  | .ok steps =>
    match tree.node? steps with
    | none => .error .missing
    | some .directory => .error .isDirectory
    | some (.file content) => .ok content

def makeDirectory (tree : FileTree) (location : String) : FileTree × Except FileError Unit :=
  match tree.entry location with
  | .error error => (tree, .error error)
  | .ok entry =>
    if !entry.isNamed then (tree, .error .alreadyThere)
    else match tree.steps entry with
      | .error error => (tree, .error error)
      | .ok steps =>
        if (tree.node? steps).isSome then (tree, .error .alreadyThere)
        else (tree.put steps .directory, .ok ())

def writeText (tree : FileTree) (location content : String) : FileTree × Except FileError Unit :=
  match tree.entry location with
  | .error error => (tree, .error error)
  | .ok entry =>
    if !entry.isNamed || entry.hasSlash then (tree, .error .isDirectory)
    else match tree.steps entry with
      | .error error => (tree, .error error)
      | .ok steps =>
        if tree.node? steps = some .directory then (tree, .error .isDirectory)
        else (tree.put steps (.file content), .ok ())

/-- Moves what is named to a name. Only files are moved, and a file can replace a file. A location that
ends in a slash asks for a directory, and no file can be moved there. -/
def moveEntry (tree : FileTree) (source target : Entry) : FileTree × Except FileError Unit :=
  match tree.steps source with
  | .error error => (tree, .error error)
  | .ok old =>
    match tree.node? old, tree.steps target with
    | none, _ => (tree, .error .missing)
    | some _, .error error => (tree, .error error)
    | some .directory, .ok _ => (tree, .error .isDirectory)
    | some (.file content), .ok new =>
      if source.hasSlash || target.hasSlash then (tree, .error .notDirectory)
      else if tree.node? new = some .directory then (tree, .error .isDirectory)
      else if old = new then (tree, .ok ())
      else ((tree.remove old).put new (.file content), .ok ())

def move (tree : FileTree) (source target : String) : FileTree × Except FileError Unit :=
  match tree.entry source, tree.entry target with
  | .error error, _ => (tree, .error error)
  | .ok _, .error error => (tree, .error error)
  | .ok source, .ok target =>
    if source.isNamed && target.isNamed then tree.moveEntry source target
    else (tree, .error .busy)

def files : Files (StateM FileTree) where
  readText location := fun tree => (tree.readText location, tree)
  exists? location := fun tree => ((tree.nodeAt? location).isSome, tree)
  isDirectory location := fun tree => (tree.nodeAt? location == some .directory, tree)
  makeDirectory location := fun tree => (tree.makeDirectory location).swap
  writeText location content := fun tree => (tree.writeText location content).swap
  move source target := fun tree => (tree.move source target).swap

/-- A tree with some directories and files, each with what holds it. What cannot be made is left
out. -/
def ofTexts (directories : List String) (texts : List (String × String)) : FileTree :=
  let made := directories.foldl (fun tree location => (files.makeDirectories location tree).2) {}
  texts.foldl
    (fun tree entry =>
      let held := match Files.Location.parent? entry.1 with
        | some parent => (files.makeDirectories parent tree).2
        | none => tree
      (held.writeText entry.1 entry.2).1)
    made

example : (ofTexts ["d"] [("a/f", "x")]).nodeAt? "d/../a/./f" = some (.file "x") := by decide

example : (((ofTexts ["d"] []).move "d.tmp" "d/.").2 matches .error .busy) = true := by decide

end FileTree

end BuildAlignment
