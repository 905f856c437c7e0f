import BuildAlignment.Error
import BuildAlignment.Text.Blank
import BuildAlignment.Text.Fields

/-!
# Artifact coordinates

A coordinate names an artifact of a group, and mostly one version of it. Its text form is
`group:artifact:version`, or `group:artifact` when the version is empty.

* `Coordinate.display` writes the text form and `Coordinate.parse` reads it.
* `ArtifactRef` is a coordinate without its version.
* `Coordinate.order` compares coordinates field by field.
-/

namespace BuildAlignment

structure ArtifactRef where
  group : String
  artifact : String
  deriving DecidableEq, Repr

def ArtifactRef.display (ref : ArtifactRef) : String :=
  ref.group ++ ":" ++ ref.artifact

structure Coordinate where
  group : String
  artifact : String
  version : String
  deriving DecidableEq, Repr

namespace Coordinate

def ref (coordinate : Coordinate) : ArtifactRef :=
  ⟨coordinate.group, coordinate.artifact⟩

def withVersion (coordinate : Coordinate) (version : String) : Coordinate :=
  { coordinate with version }

/-- The text form. An empty version is left out, with its colon. -/
def display (coordinate : Coordinate) : String :=
  if coordinate.version = "" then coordinate.ref.display
  else coordinate.ref.display ++ ":" ++ coordinate.version

/-- Reads a text form. Blank characters at both ends do not count, the version may be missing, and
the artifact may not be empty. -/
def parse (text : String) : Except AlignmentError Coordinate :=
  let invalid (problem : CoordinateProblem) : Except AlignmentError Coordinate :=
    .error (.configuration (.coordinate text problem))
  let checked (coordinate : Coordinate) : Except AlignmentError Coordinate :=
    if coordinate.artifact = "" then invalid .emptyArtifact else .ok coordinate
  match Text.fields ':' (Text.trim text) with
  | [group, artifact] => checked ⟨group, artifact, ""⟩
  | [group, artifact, version] => checked ⟨group, artifact, version⟩
  | _ => invalid .shape

/-- Field by field, each by code point. -/
def order (first second : Coordinate) : Ordering :=
  (compare first.group second.group).then <|
    (compare first.artifact second.artifact).then (compare first.version second.version)

theorem ref_withVersion (coordinate : Coordinate) (version : String) :
    (coordinate.withVersion version).ref = coordinate.ref := rfl

example : (parse " g:a:1.0 ").toOption = some ⟨"g", "a", "1.0"⟩ := by decide

example : (parse "g::1.0").toOption = none := by decide

end Coordinate

end BuildAlignment
