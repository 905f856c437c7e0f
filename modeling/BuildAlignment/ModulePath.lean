import BuildAlignment.Text.Fields

/-!
# Module paths

A module path names a module by the keys on the way from the root, as `:parent:child` does. The
root itself is `:`.

* `ModulePath.segments?` reads the keys off a path.
* `ModulePath.child` is the path of a child, `ModulePath.ofKeys` the path of a list of keys.
-/

namespace BuildAlignment.ModulePath

def root : String := ":"

/-- The keys that a path goes through. A text that does not start at the root is no path. -/
def segments? (path : String) : Option (List String) :=
  match path.toList with
  | ':' :: rest => some (if rest.isEmpty then [] else Text.fields ':' (String.ofList rest))
  | _ => none

def child (parent key : String) : String :=
  if parent = root then ":" ++ key else parent ++ ":" ++ key

def ofKeys (keys : List String) : String :=
  keys.foldl child root

theorem ofKeys_nil : ofKeys [] = root := rfl

example : segments? ":parent:child" = some ["parent", "child"] := by decide

example : ofKeys ["parent", "child"] = ":parent:child" := by decide

end BuildAlignment.ModulePath
