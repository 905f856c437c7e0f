import BuildAlignment.Json.Printer
import BuildAlignment.Json.Reader
import BuildAlignment.ModuleTree

/-!
# The JSON form of a module tree

A module is written as an object with the members of `memberNames` in this order, of which an
absent version and an empty map are left out.

* `ModuleTree.toJson` and `ModuleTree.render` write a tree.
* `ModuleTree.ofJson?` and `ModuleTree.read?` read one. Unknown members are skipped, only the name
  has to be there, and a module may also be a list of its members' values in the same order.
-/

namespace BuildAlignment.ModuleTree

/-! ### Writing -/

def infoMembers (info : ModuleInfo) : List (String × Json) :=
  [("name", .text info.name), ("group", .text info.group)]
    ++ (match info.version with
      | some version => [("version", .text version)]
      | none => [])
    ++ (match info.formerVersion with
      | some version => [("originalVersion", .text version)]
      | none => [])
    ++ if info.aligned.isEmpty then []
      else [("alignedDependencies",
        .object (info.aligned.map fun entry => (entry.1, .text entry.2.display)))]

mutual

def toJson : ModuleTree → Json
  | node info [] => .object (infoMembers info)
  | node info (entry :: rest) =>
    .object (infoMembers info ++ [("children", .object (childMembers (entry :: rest)))])

def childMembers : List (String × ModuleTree) → List (String × Json)
  | [] => []
  | (key, child) :: rest => (key, toJson child) :: childMembers rest

end

/-- The text of a saved tree: its JSON form, and a line end. -/
def render (tree : ModuleTree) : String :=
  tree.toJson.render ++ "\n"

/-! ### Reading -/

/-- How deep lists and objects may lie in each other, that one excluded. -/
def depthLimit : Nat := 128

def memberNames : List String :=
  ["name", "group", "version", "originalVersion", "alignedDependencies", "children"]

/-- The members of a module that have been read so far. -/
structure Draft where
  name : Option String := none
  group : Option String := none
  version : Option (Option String) := none
  formerVersion : Option (Option String) := none
  aligned : Option (Keyed Coordinate) := none
  children : Option (Keyed ModuleTree) := none

def Draft.finish? (draft : Draft) : Option ModuleTree :=
  draft.name.map fun name =>
    node
      { name
        group := draft.group.getD ""
        version := draft.version.getD none
        formerVersion := draft.formerVersion.getD none
        aligned := draft.aligned.getD [] }
      (draft.children.getD [])

/-- The coordinate of a JSON text. -/
def coordinateOfJson? : Json → Option Coordinate
  | .text value => (Coordinate.parse value).toOption
  | _ => none

/-- The map of replacements of an object, where the last one for a key counts. -/
def alignedOfMembers? (members : List (String × Json)) : Option (Keyed Coordinate) :=
  (members.mapM fun member => (coordinateOfJson? member.2).map fun found => (member.1, found)).map
    Keyed.ofEntries

def textOfJson? : Json → Option String
  | .text value => some value
  | _ => none

def optionalText? : Json → Option (Option String)
  | .text value => some (some value)
  | .null => some none
  | _ => none

/-- Sets a member of a draft that has not been set. -/
def setOnce {α : Type} (old : Option α) (value : Option α) (update : Option α → Draft) :
    Option Draft :=
  if old.isSome || value.isNone then none else some (update value)

mutual

/-- The tree of a JSON value. The depth is how many lists and objects may still be entered. -/
def ofJson? (depth : Nat) : Json → Option ModuleTree
  | .object members =>
    if depth ≤ 1 then none else (ofMembers? (depth - 1) {} members).bind Draft.finish?
  | .list items =>
    if depth ≤ 1 then none
    else (ofItems? (depth - 1) {} memberNames items).bind Draft.finish?
  | _ => none

/-- Adds members to a draft. -/
def ofMembers? (depth : Nat) (draft : Draft) : List (String × Json) → Option Draft
  | [] => some draft
  | (name, value) :: rest =>
    match ofMember? depth draft name value with
    | some next => ofMembers? depth next rest
    | none => none

/-- Adds the items of a list to a draft, by their places. -/
def ofItems? (depth : Nat) (draft : Draft) (names : List String) : List Json → Option Draft
  | [] => some draft
  | value :: rest =>
    match names with
    | [] => none
    | name :: names =>
      match ofMember? depth draft name value with
      | some next => ofItems? depth next names rest
      | none => none

/-- Adds one member to a draft. A member that is not known is skipped, whatever it holds. -/
def ofMember? (depth : Nat) (draft : Draft) (name : String) (value : Json) : Option Draft :=
  if name = "name" then
    setOnce draft.name (textOfJson? value) fun found => { draft with name := found }
  else if name = "group" then
    setOnce draft.group (textOfJson? value) fun found => { draft with group := found }
  else if name = "version" then
    setOnce draft.version (optionalText? value) fun found => { draft with version := found }
  else if name = "originalVersion" then
    setOnce draft.formerVersion (optionalText? value) fun found =>
      { draft with formerVersion := found }
  else if name = "alignedDependencies" then
    match value with
    | .object members =>
      if depth ≤ 1 then none
      else setOnce draft.aligned (alignedOfMembers? members) fun found =>
        { draft with aligned := found }
    | _ => none
  else if name = "children" then
    match value with
    | .object members =>
      if depth ≤ 1 then none
      else setOnce draft.children (ofChildren? (depth - 1) [] members) fun found =>
        { draft with children := found }
    | _ => none
  else some draft

/-- Adds subtrees under their keys, where the last one for a key counts. -/
def ofChildren? (depth : Nat) (done : Keyed ModuleTree) :
    List (String × Json) → Option (Keyed ModuleTree)
  | [] => some done
  | (key, value) :: rest =>
    match ofJson? depth value with
    | some child => ofChildren? depth (done.insert key child) rest
    | none => none

end

def read? (source : String) : Option ModuleTree :=
  (Json.read? source).bind (ofJson? depthLimit)

end BuildAlignment.ModuleTree
