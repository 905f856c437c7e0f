import BuildAlignment.Settings
import BuildAlignment.Text.Number

/-!
# Properties

Settings can be changed one by one with properties, written as `key=value`.

* `parseProperty` takes a property apart.
* `Settings.applyProperty` applies one property. A key that is not known changes nothing.
* `Settings.applyProperties` applies properties in turn, up to the first one with a bad value.
-/

namespace BuildAlignment

/-- What is before and after the first equals sign. -/
def splitAtEquals (property : String) : String × String :=
  let cs := property.toList
  (String.ofList (cs.takeWhile (· != '=')), String.ofList ((cs.dropWhile (· != '=')).drop 1))

/-- The key and the value of a property, without blank characters around them. A property needs a
key, and a value that is missing is empty. -/
def parseProperty (property : String) : Except AlignmentError (String × String) :=
  let parts := splitAtEquals property
  let key := Text.trim parts.1
  if key = "" then .error (.configuration (.propertyWithoutKey property))
  else .ok (key, Text.trim parts.2)

namespace Settings

def overrideStart : String := "dependencyOverride."

def exclusionStart : String := "dependencyExclusion."

/-- A truth value in any ASCII case. An empty value means true. -/
def parseBoolean (key value : String) : Except AlignmentError Bool :=
  let folded := Text.asciiLower value
  if folded = "true" ∨ folded = "" then .ok true
  else if folded = "false" then .ok false
  else .error (.configuration (.notBoolean key value))

/-- A number of at most sixty-four bits in decimal digits, with or without a plus sign. -/
def parseCount? (text : String) : Option Nat :=
  match text.toList with
  | '+' :: digits => Text.number? digits
  | digits => Text.number? digits

def parseNumber (key value : String) : Except AlignmentError Nat :=
  match parseCount? value with
  | some number => .ok number
  | none => .error (.configuration (.notNumber key value))

/-- An empty value takes a setting away. -/
def unlessEmpty (value : String) : Option String :=
  if value = "" then none else some value

/-- Applies a property that stands for one setting. -/
def applyScalar (settings : Settings) (key value : String) : Except AlignmentError Settings :=
  match key with
  | "authority" => .ok { settings with authority := unlessEmpty value }
  | "dependencySource" =>
    (DependencySource.parse value).map fun source => { settings with source }
  | "versionModification" =>
    (parseBoolean key value).map fun versionModification => { settings with versionModification }
  | "versionIncrementalSuffix" => .ok { settings with suffix := value }
  | "versionIncrementalSuffixPadding" =>
    (parseNumber key value).map fun padding => { settings with padding }
  | "versionSuffixSnapshot" =>
    (parseBoolean key value).map fun preserveSnapshot => { settings with preserveSnapshot }
  | "versionOverride" => .ok { settings with versionOverride := unlessEmpty value }
  | "ignoreUnresolvableDependencies" =>
    (parseBoolean key value).map fun ignoreUnresolvable => { settings with ignoreUnresolvable }
  | "reportNonAligned" =>
    (parseBoolean key value).map fun reportNonAligned => { settings with reportNonAligned }
  | _ => .ok settings

def applyProperty (settings : Settings) (key value : String) : Except AlignmentError Settings :=
  match Text.stripStart? overrideStart key with
  | some rule => .ok { settings with overrides := settings.overrides.insert rule value }
  | none =>
    match Text.stripStart? exclusionStart key with
    | some rule => .ok { settings with exclusions := settings.exclusions.insert rule value }
    | none => settings.applyScalar key value

/-- Applies properties in turn. The first bad value ends it, and what came before stays. -/
def applyProperties (settings : Settings) :
    List (String × String) → Settings × Except AlignmentError Unit
  | [] => (settings, .ok ())
  | (key, value) :: rest =>
    match settings.applyProperty key value with
    | .ok next => next.applyProperties rest
    | .error error => (settings, .error error)

end Settings

end BuildAlignment
