/-!
# Problems of a rule key

A rule key is checked as a whole, and every fault that is found in it becomes one problem.

* `Slot` names the place of a segment within a key.
* `RuleProblem` is a fault, and `RuleProblem.text` its wording.
-/

namespace BuildAlignment

inductive Slot where
  | group
  | artifact
  | version
  | ownerGroup
  | ownerArtifact
  deriving DecidableEq, Repr

def Slot.text : Slot → String
  | .group => "group"
  | .artifact => "artifact"
  | .version => "version"
  | .ownerGroup => "module group"
  | .ownerArtifact => "module artifact"

inductive RuleProblem where
  /-- No separator between the dependency and the owner. -/
  | noSeparator
  /-- More than one separator. -/
  | severalSeparators (found : Nat)
  /-- A dependency pattern with more than three segments. -/
  | tooManySegments (pattern : String) (found : Nat)
  /-- An owner pattern that is neither the wildcard nor two segments. -/
  | ownerShape (pattern : String)
  /-- A segment without characters. -/
  | emptySegment (slot : Slot)
  /-- A segment in which the wildcard stands beside other characters. -/
  | mixedSegment (slot : Slot) (segment : String)
  /-- A segment with a blank character. -/
  | blankSegment (slot : Slot) (segment : String)
  /-- All problems of one key, where several keys are reported together. -/
  | ofKey (key : String) (problems : List String)
  /-- A problem that is known by its text only. -/
  | other (text : String)
  deriving DecidableEq, Repr

def RuleProblem.text : RuleProblem → String
  | .noSeparator => "missing '@' between dependency and module patterns"
  | .severalSeparators found => "expected exactly one '@', found " ++ toString found
  | .tooManySegments pattern found =>
    "dependency pattern '" ++ pattern ++ "' has " ++ toString found
      ++ " segments, expected at most group:artifact:version"
  | .ownerShape pattern =>
    "module pattern '" ++ pattern ++ "' must be '*' or 'group:artifact'"
  | .emptySegment slot => slot.text ++ " segment is empty"
  | .mixedSegment slot segment =>
    slot.text ++ " segment '" ++ segment
      ++ "' mixes '*' with other characters, use a lone '*' instead"
  | .blankSegment slot segment => slot.text ++ " segment '" ++ segment ++ "' contains whitespace"
  | .ofKey key problems => key ++ ": " ++ String.intercalate ", " problems
  | .other text => text

end BuildAlignment
