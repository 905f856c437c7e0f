import BuildAlignment.Text.Blank
import BuildAlignment.Text.Bytes
import BuildAlignment.Text.Fields

/-!
# Kinds of versions

What a version text says by its shape.

* `isDynamic` holds of versions that a build tool has to resolve: open ends, the latest of a
  kind, and ranges.
* `isUnspecified` holds of versions that say nothing.
* `stripSnapshot?` takes a snapshot marker off the end.
-/

namespace BuildAlignment.Version

/-- The word that stands for a missing version. -/
def unspecified : String := "unspecified"

/-- The word that marks a version under development. -/
def snapshot : String := "snapshot"

/-- A range opens with a bracket, closes with one, and has a comma. -/
def isRange (cs : List Char) : Bool :=
  (match cs.head? with
    | some '[' | some '(' | some ']' => true
    | _ => false)
  && (match cs.getLast? with
    | some ']' | some ')' | some '[' => true
    | _ => false)
  && cs.contains ','

/-- A version that names no fixed release: it ends with a plus, begins with `latest.`, or is a
range. -/
def isDynamic (version : String) : Bool :=
  let cs := Text.trimChars version.toList
  cs.getLast? == some '+' || "latest.".toList.isPrefixOf cs || isRange cs

/-- A version that says nothing: blank, or the word for it. -/
def isUnspecified (version : String) : Bool :=
  let trimmed := Text.trim version
  trimmed == "" || trimmed == unspecified

/-- The version without its snapshot marker, which is the word in any ASCII case after a hyphen or
a dot. A version no longer than the word has none. There is no answer when the last eight bytes
begin inside a character. -/
def stripSnapshot? (version : String) : Option String :=
  let cs := version.toList
  if Text.byteSize cs ≤ snapshot.length then some version
  else match Text.cutTail? snapshot.length cs with
    | none => none
    | some (head, tail) =>
      if tail.map Text.asciiLowerChar = snapshot.toList then
        match head.getLast? with
        | some '-' | some '.' => some (String.ofList head.dropLast)
        | _ => some version
      else some version

example : isDynamic "[1.0,2.0)" = true := by decide

example : stripSnapshot? "1.0-SNAPSHOT" = some "1.0" := by decide

example : stripSnapshot? "éaaaaaaa" = none := by decide

end BuildAlignment.Version
