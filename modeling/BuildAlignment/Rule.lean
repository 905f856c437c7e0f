import BuildAlignment.Coordinate

/-!
# Dependency rules

A rule key names dependencies and the modules they are dependencies of, as in
`org.mockito:*@org.acme:test`. Each segment is a literal or the wildcard `*`. A missing segment of
the dependency is a wildcard, and a version takes no part in matching.

* `Segment`, `DependencyPattern` and `OwnerPattern` are the parts of a `Rule`.
* `Rule.parse` reads a key and reports every problem in it.
* `Rule.parseAll` reads many keys and reports every malformed one.
* `Rule.covers` decides whether a rule speaks about a dependency of a module.
-/

namespace BuildAlignment

inductive Segment where
  | literal (text : String)
  | wildcard
  deriving DecidableEq, Repr

namespace Segment

/-- A literal matches itself, the wildcard everything. -/
def accepts (value : String) : Segment → Bool
  | literal text => text == value
  | wildcard => true

def display : Segment → String
  | literal text => text
  | wildcard => "*"

def ofText (text : String) : Segment :=
  if text = "*" then wildcard else literal text

/-- What is wrong with the text of a segment, at most one thing. -/
def problems (slot : Slot) (text : String) : List RuleProblem :=
  if text = "*" then []
  else if text = "" then [.emptySegment slot]
  else if Text.contains '*' text then [.mixedSegment slot text]
  else if text.toList.any Text.isBlankChar then [.blankSegment slot text]
  else []

end Segment

structure DependencyPattern where
  group : Segment
  artifact : Segment
  version : Segment
  deriving DecidableEq, Repr

namespace DependencyPattern

/-- Group and artifact decide, the version does not. -/
def accepts (pattern : DependencyPattern) (candidate : Coordinate) : Bool :=
  pattern.group.accepts candidate.group && pattern.artifact.accepts candidate.artifact

/-- The text form. A wildcard version is left out. -/
def display (pattern : DependencyPattern) : String :=
  let ref := pattern.group.display ++ ":" ++ pattern.artifact.display
  if pattern.version = .wildcard then ref else ref ++ ":" ++ pattern.version.display

/-- The pattern of a text, where missing segments are wildcards. -/
def ofText (text : String) : DependencyPattern :=
  let segment (index : Nat) : Segment :=
    match (Text.fields ':' text)[index]? with
    | some part => .ofText part
    | none => .wildcard
  ⟨segment 0, segment 1, segment 2⟩

/-- What is wrong with the text of a pattern: too many segments, then each of the first three. -/
def problems (text : String) : List RuleProblem :=
  let parts := Text.fields ':' text
  (if parts.length > 3 then [.tooManySegments text parts.length] else [])
    ++ (List.zipWith Segment.problems [.group, .artifact, .version] parts).flatten

end DependencyPattern

inductive OwnerPattern where
  | any
  | owner (group artifact : Segment)
  deriving DecidableEq, Repr

namespace OwnerPattern

/-- Group and artifact decide. -/
def accepts (ref : ArtifactRef) : OwnerPattern → Bool
  | any => true
  | owner group artifact => group.accepts ref.group && artifact.accepts ref.artifact

def display : OwnerPattern → String
  | any => "*"
  | owner group artifact => group.display ++ ":" ++ artifact.display

/-- The pattern of a text: a lone wildcard is any module, else two segments. -/
def ofText (text : String) : OwnerPattern :=
  if text = "*" then any
  else
    let segment (index : Nat) : Segment :=
      match (Text.fields ':' text)[index]? with
      | some part => .ofText part
      | none => .wildcard
    owner (segment 0) (segment 1)

/-- What is wrong with the text of a pattern: its shape, then each of the first two segments. -/
def problems (text : String) : List RuleProblem :=
  if text = "*" then []
  else
    let parts := Text.fields ':' text
    (if parts.length = 2 then [] else [.ownerShape text])
      ++ (List.zipWith Segment.problems [.ownerGroup, .ownerArtifact] parts).flatten

end OwnerPattern

/-- A rule about some dependencies of some modules, with the key it was read from. -/
structure Rule where
  key : String
  pattern : DependencyPattern
  owner : OwnerPattern
  deriving DecidableEq, Repr

namespace Rule

/-- The text form of a rule, in which the missing segments of its key are written out. -/
def display (rule : Rule) : String :=
  rule.pattern.display ++ "@" ++ rule.owner.display

/-- Whether the rule speaks about the dependencies of a module. -/
def appliesTo (rule : Rule) (ref : ArtifactRef) : Bool :=
  rule.owner.accepts ref

/-- Whether the rule speaks about a dependency of a module. -/
def covers (rule : Rule) (candidate owner : Coordinate) : Bool :=
  rule.appliesTo owner.ref && rule.pattern.accepts candidate

/-- Every problem of a key. Without exactly one separator there is nothing more to look at. -/
def problems (key : String) : List RuleProblem :=
  match Text.fields '@' key with
  | [dependency, owner] => DependencyPattern.problems dependency ++ OwnerPattern.problems owner
  | [_] => [.noSeparator]
  | parts => [.severalSeparators (parts.length - 1)]

def parse (key : String) : Except AlignmentError Rule :=
  match problems key, Text.fields '@' key with
  | [], [dependency, owner] => .ok ⟨key, .ofText dependency, .ofText owner⟩
  | found, _ => .error (.malformedRule key found)

/-- Reads the key of every entry. One malformed key gives its own error, several give one error
that names them all. -/
def parseAll {α : Type} (entries : List (String × α)) : Except AlignmentError (List (Rule × α)) :=
  match entries.filter fun entry => !(problems entry.1).isEmpty with
  | [] => entries.mapM fun entry => (parse entry.1).map fun rule => (rule, entry.2)
  | [(key, _)] => .error (.malformedRule key (problems key))
  | malformed =>
    .error <| .malformedRule (String.intercalate ", " (malformed.map Prod.fst)) <|
      malformed.map fun entry => .ofKey entry.1 ((problems entry.1).map RuleProblem.text)

/-- A key that parses is kept. -/
theorem key_of_parse {key : String} {rule : Rule} (h : parse key = .ok rule) :
    rule.key = key := by
  unfold parse at h
  split at h
  · cases h
    rfl
  · cases h

example : (parse "g:*@org.acme:test").toOption.map display = some "g:*@org.acme:test" := by decide

end Rule

end BuildAlignment
