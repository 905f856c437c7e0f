import BuildAlignment.Error

/-!
# Failures and advice

A failure is a cause inside the contexts in which it arose. It is shown to the user with details
and a suggestion where they help.

* `Cause` and `Failure` say what went wrong and where.
* `Failure.chain` writes everything on one line.
* `Advice.ofFailure` is what the user is shown, `Advice.text` and `Advice.lines` its wording.
-/

namespace BuildAlignment

inductive Cause where
  | alignment (error : AlignmentError)
  /-- A file operation failed, perhaps because something is not there. -/
  | file (text : String) (missing : Bool)
  | toml (text : String)
  | json (text : String)
  | other (text : String)
  deriving DecidableEq, Repr

namespace Cause

def text : Cause → String
  | alignment error => error.message
  | file text _ => text
  | toml text => text
  | json text => text
  | other text => text

def unreadableToml : Cause := toml "TOML parse error"

def unreadableJson : Cause := json "JSON error"

end Cause

structure Failure where
  cause : Cause
  contexts : List String := []
  deriving DecidableEq, Repr

namespace Failure

def ofError (error : AlignmentError) : Failure := ⟨.alignment error, []⟩

def within (failure : Failure) (context : String) : Failure :=
  { failure with contexts := failure.contexts ++ [context] }

/-- The contexts and the cause, the outermost first. -/
def messages (failure : Failure) : List String :=
  failure.contexts.reverse ++ [failure.cause.text]

def chain (failure : Failure) : String :=
  String.intercalate ": " failure.messages

def numbered (start : Nat) : List String → List String
  | [] => []
  | message :: rest => ("\n  " ++ toString start ++ ": " ++ message) :: numbered (start + 1) rest

/-- The outermost message, with the others below it as its causes. -/
def explained (failure : Failure) : String :=
  match failure.messages with
  | [] => ""
  | [message] => message
  | message :: causes => message ++ "\n\nCaused by:" ++ String.join (numbered 1 causes)

/-- A context comes before everything that was there. -/
theorem messages_within (failure : Failure) (context : String) :
    (failure.within context).messages = context :: failure.messages := by
  simp [within, messages]

end Failure

structure Advice where
  error : AlignmentError
  details : Option String := none
  suggestion : Option String := none
  deriving DecidableEq, Repr

namespace Advice

/-- The details and the suggestion for an error. -/
def ofError (error : AlignmentError) : Advice :=
  match error with
  | .malformedRule .. =>
    { error
      details := some <| "Malformed rules are configuration errors and stop the build before any "
        ++ "module is scanned"
      suggestion := some <| "Rule keys have the form '<group>:<artifact>@<ownerGroup>:"
        ++ "<ownerArtifact>', where any segment may be '*'" }
  | .missingAuthority =>
    { error
      details :=
        some "The authority provides the aligned versions for every dependency of the build"
      suggestion := some <| "Set 'authority' in depalign.toml, or set dependency_source = "
        ++ "\"none\" to skip alignment" }
  | .unresolvableDependency .. =>
    { error
      details := some <| "Dynamic dependency versions must be resolved to a concrete version "
        ++ "before alignment"
      suggestion := some <| "Add a 'resolved' coordinate for the dependency, or set "
        ++ "ignore_unresolvable_dependencies = true" }
  | .authorityUnavailable .. =>
    { error
      details := some "No module of the alignment model was modified"
      suggestion := some "Check that the authority location is correct and readable" }
  | .moduleNotFound _ suggestions =>
    { error
      suggestion := some <|
        if suggestions.isEmpty then
          "Use a root-relative path such as ':sub' or ':parent:child'"
        else "Did you mean: " ++ String.intercalate ", " suggestions ++ "?" }
  | .ambiguousModule .. =>
    { error
      suggestion :=
        some "Use the full root-relative path of the module instead of its bare name" }
  | _ => { error }

/-- What is shown for a failure. An alignment error speaks for itself, whatever its contexts. -/
def ofFailure (failure : Failure) : Advice :=
  match failure.cause with
  | .alignment error => ofError error.restate
  | .file _ true =>
    { error := .other failure.explained
      suggestion := some "Check that the file or directory exists and the path is correct" }
  | .toml text =>
    { error := .configuration (.other text)
      details := some "Rule keys containing ':' or '@' must be quoted in TOML tables"
      suggestion := some "Check the TOML syntax. Verify quotes, brackets, and key names" }
  | .json text =>
    { error := .other text
      suggestion := some <| "The model file may be corrupted. Run 'depalign align --fresh' to "
        ++ "regenerate it" }
  | .file _ false | .other _ => { error := .other failure.explained }

/-- A labelled part, if it is there. -/
def part (label : String) : Option String → String
  | some value => label ++ value
  | none => ""

def text (advice : Advice) : String :=
  advice.error.message ++ part "\nDetails: " advice.details
    ++ part "\nSuggestion: " advice.suggestion

def lines (advice : Advice) : List String :=
  ["error: " ++ advice.error.message]
    ++ (advice.details.map ("details: " ++ ·)).toList
    ++ (advice.suggestion.map ("suggestion: " ++ ·)).toList

def output (advice : Advice) : String :=
  String.join (advice.lines.map (· ++ "\n"))

end Advice

end BuildAlignment
