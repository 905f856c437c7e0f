import BuildAlignment.Rule.Problem

/-!
# Errors of an alignment

Every way in which an alignment can fail is a cause, with its wording in one function.

* `ConfigProblem` and `PathProblem` say what is wrong with a configuration and with a module path.
* `AlignmentError` is the cause of a failed operation, `AlignmentError.message` its wording.
* `AlignmentError.restate` is the form in which an error is kept and told again.
* `Stop` adds the way to end without a result and without an error: a version that cannot be made.
-/

namespace BuildAlignment

inductive CoordinateProblem where
  | shape
  | emptyArtifact
  deriving DecidableEq, Repr

def CoordinateProblem.text : CoordinateProblem → String
  | .shape => "expected 'group:artifact[:version]'"
  | .emptyArtifact => "artifact must not be empty"

/-- What is wrong with a configuration or with the data of a build. -/
inductive ConfigProblem where
  | coordinate (text : String) (problem : CoordinateProblem)
  | unknownSource (text : String)
  | propertyWithoutKey (property : String)
  | notBoolean (key value : String)
  | notNumber (key value : String)
  | paddingOutOfRange (limit padding : Nat)
  | suffixRefused (suffix : String)
  | emptySuffix
  | paddingRefused (limit : Nat)
  | noVersion
  | noRootGroup
  | keyWithoutVersion (key : String)
  /-- A problem that is known by its text only. -/
  | other (text : String)
  deriving DecidableEq, Repr

def ConfigProblem.text : ConfigProblem → String
  | .coordinate text problem => "Invalid coordinate '" ++ text ++ "': " ++ problem.text
  | .unknownSource text =>
    "Unknown dependency source '" ++ text ++ "', expected 'rest' or 'none'"
  | .propertyWithoutKey property => "Property '" ++ property ++ "' has no key"
  | .notBoolean key value =>
    "Property '" ++ key ++ "' expects true or false, got '" ++ value ++ "'"
  | .notNumber key value => "Property '" ++ key ++ "' expects a number, got '" ++ value ++ "'"
  | .paddingOutOfRange limit padding =>
    "version_incremental_suffix_padding must be between 1 and " ++ toString limit ++ ", got "
      ++ toString padding
  | .suffixRefused suffix =>
    "version_incremental_suffix '" ++ suffix ++ "' must be non-empty and must not contain '-'"
  | .emptySuffix => "Suffix must not be empty"
  | .paddingRefused limit => "Padding must be between 1 and " ++ toString limit
  | .noVersion =>
    "Unable to locate a suitable original version, every module is unversioned"
  | .noRootGroup => "Empty root group and no common group prefix among its modules"
  | .keyWithoutVersion key => "Translation key '" ++ key ++ "' has no version"
  | .other text => text

inductive PathProblem where
  | notFromRoot
  | rootExists
  | emptySegment
  | noParent (parents : List String)
  | occupied
  /-- A problem that is known by its text only. -/
  | other (text : String)
  deriving DecidableEq, Repr

def PathProblem.text : PathProblem → String
  | .notFromRoot => "paths start with ':'"
  | .rootExists => "the root module already exists"
  | .emptySegment => "path contains an empty segment"
  | .noParent parents =>
    "parent module ':" ++ String.intercalate ":" parents ++ "' does not exist"
  | .occupied => "a module with this path already exists"
  | .other text => text

inductive AlignmentError where
  | malformedRule (key : String) (problems : List RuleProblem)
  | configuration (problem : ConfigProblem)
  | missingAuthority
  | unresolvableDependency (path dependency : String)
  | authorityUnavailable (reason : String)
  | moduleNotFound (name : String) (suggestions : List String)
  | ambiguousModule (name : String) (candidates : List String)
  | versionAlreadyAssigned (name : String)
  | invalidPath (path : String) (problem : PathProblem)
  | duplicateRegistration (path : String)
  | alreadyPerformed
  | pending (remaining : Nat)
  | poisoned
  /-- A file operation failed with this text. -/
  | file (text : String)
  /-- A text is no JSON of the expected shape. -/
  | json (text : String)
  /-- A text is no TOML of the expected shape. -/
  | toml (text : String)
  | other (text : String)
  deriving DecidableEq, Repr

namespace AlignmentError

def message : AlignmentError → String
  | malformedRule key problems =>
    "Malformed rule key '" ++ key ++ "': "
      ++ String.intercalate "; " (problems.map RuleProblem.text)
  | configuration problem => "Configuration error: " ++ problem.text
  | missingAuthority =>
    "An alignment authority must be configured when dependency_source is 'rest'"
  | unresolvableDependency path dependency =>
    "Module '" ++ path ++ "' has an unresolvable dependency: " ++ dependency
  | authorityUnavailable reason => "Alignment authority unavailable: " ++ reason
  | moduleNotFound name _ => "Module '" ++ name ++ "' does not exist in the alignment model"
  | ambiguousModule name candidates =>
    "Module name '" ++ name ++ "' is ambiguous, candidates: "
      ++ String.intercalate ", " candidates
  | versionAlreadyAssigned name =>
    "Version of module '" ++ name ++ "' has already been assigned"
  | invalidPath path problem => "Invalid module path '" ++ path ++ "': " ++ problem.text
  | duplicateRegistration path =>
    "Module '" ++ path ++ "' has already registered its dependencies"
  | alreadyPerformed => "Alignment has already been performed for this build"
  | pending remaining =>
    "Alignment has not completed, " ++ toString remaining ++ " module(s) still have to register"
  | poisoned => "Alignment barrier state is poisoned"
  | file text => "IO error: " ++ text
  | json text => "JSON error: " ++ text
  | toml text => "TOML parsing error: " ++ text
  | other text => text

def isConfiguration : AlignmentError → Bool
  | malformedRule .. | configuration .. | missingAuthority => true
  | _ => false

/-- The form in which an error is kept to be told again: a file or format error keeps its wording
only, every other error is kept whole. -/
def restate : AlignmentError → AlignmentError
  | error@(file _) | error@(json _) | error@(toml _) => other error.message
  | error => error

/-- An error that is told again reads as it did the first time. -/
theorem message_restate (error : AlignmentError) : error.restate.message = error.message := by
  cases error <;> rfl

theorem restate_restate (error : AlignmentError) : error.restate.restate = error.restate := by
  cases error <;> rfl

end AlignmentError

/-- How an operation ends that gives no result. -/
inductive Stop where
  | failed (error : AlignmentError)
  /-- A version had to be cut inside a character, or its counter to be filled up too far, so the
  operation was given up at that point. -/
  | aborted
  deriving DecidableEq, Repr

end BuildAlignment
