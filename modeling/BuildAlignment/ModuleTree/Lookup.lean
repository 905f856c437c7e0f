import BuildAlignment.ModuleTree
import BuildAlignment.Text.Blank
import BuildAlignment.Text.Bytes
import BuildAlignment.Text.Distance

/-!
# Looking a module up

A query is a path, or the name of exactly one module. Blank characters around it do not count.

* `ModuleTree.resolve` gives the path that a query means.
* `ModuleTree.find` gives the module, and `ModuleTree.modify` changes it. A change that may be
  refused is made by `ModuleTree.change`.
* `ModuleTree.suggestions` lists the paths and names that come close to a query.
-/

namespace BuildAlignment.ModuleTree

def suggestionCount : Nat := 3

/-- The largest distance of a suggestion: half the bytes of the query, and at least one. -/
def suggestionLimit (query : String) : Nat :=
  max 1 (Text.byteSize query.toList / 2)

def namesAtPaths (tree : ModuleTree) : List String :=
  tree.paths.filterMap fun path => (tree.locatePath? path).map fun found => found.info.name

/-- Every path and every name, once each and in code point order. -/
def knownNames (tree : ModuleTree) : List String :=
  (Keyed.ofEntries ((tree.paths ++ tree.namesAtPaths).map fun name => (name, ()))).map Prod.fst

/-- The known paths and names within the limit, nearest first and then in code point order, as far
as the count allows. -/
def suggestions (tree : ModuleTree) (query : String) : List String :=
  let scored := tree.knownNames.map fun name => (name, Text.distance query name)
  let near := scored.filter fun entry => entry.2 ≤ suggestionLimit query
  ((near.mergeSort fun first second => first.2 ≤ second.2).take suggestionCount).map Prod.fst

def notFound (tree : ModuleTree) (query : String) : AlignmentError :=
  .moduleNotFound query (tree.suggestions query)

def pathsNamed (tree : ModuleTree) (name : String) : List String :=
  (tree.nodes.filter fun entry => entry.2.name = name).map fun entry => ModulePath.ofKeys entry.1

/-- The path that a query means. A text that starts at the root is taken as a path, any other as a
name that has to be the name of one module. -/
def resolve (tree : ModuleTree) (query : String) : Except AlignmentError String :=
  let trimmed := Text.trim query
  if (ModulePath.segments? trimmed).isSome then
    if (tree.locatePath? trimmed).isSome then .ok trimmed else .error (tree.notFound trimmed)
  else match tree.pathsNamed trimmed with
    | [] => .error (tree.notFound trimmed)
    | [path] => .ok path
    | candidates => .error (.ambiguousModule trimmed candidates)

/-- The keys that lead to the module that a query means. -/
def keysOf (tree : ModuleTree) (query : String) : Except AlignmentError (List String) :=
  match tree.resolve query with
  | .error error => .error error
  | .ok path =>
    let keys := (ModulePath.segments? path).getD []
    if (tree.locate? keys).isSome then .ok keys else .error (tree.notFound query)

def find (tree : ModuleTree) (query : String) : Except AlignmentError ModuleTree :=
  match tree.keysOf query with
  | .error error => .error error
  | .ok keys =>
    match tree.locate? keys with
    | some found => .ok found
    | none => .error (tree.notFound query)

/-- Changes what is kept for the module that a query means. -/
def modify (tree : ModuleTree) (query : String) (change : ModuleInfo → ModuleInfo) :
    Except AlignmentError ModuleTree :=
  (tree.keysOf query).map fun keys => tree.updateAt change keys

/-- Changes what is kept for the module that a query means, unless the change is refused. -/
def change (tree : ModuleTree) (query : String)
    (step : ModuleInfo → Except AlignmentError ModuleInfo) : Except AlignmentError ModuleTree :=
  match tree.keysOf query with
  | .error error => .error error
  | .ok keys =>
    match tree.locate? keys with
    | none => .error (tree.notFound query)
    | some found => (step found.info).map fun info => tree.updateAt (fun _ => info) keys

def assignVersion (tree : ModuleTree) (query version : String) :
    Except AlignmentError ModuleTree :=
  tree.change query fun info => info.assignVersion version query

end BuildAlignment.ModuleTree
