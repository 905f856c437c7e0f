import BuildAlignment.Barrier

/-!
# Settings of an alignment

* `RuleTable` keeps rule keys with their values in the order in which they first came.
* `Settings` are all settings, with their values when nothing is configured.
* `Settings.validate` checks them, and reports every malformed rule key at once.
* `Settings.aligner` and `Settings.barrierPolicy` are what they come to.
-/

namespace BuildAlignment

/-- Rule keys with their values, each key once. Earlier rules win over later ones. -/
structure RuleTable where
  entries : List (String × String) := []
  deriving DecidableEq, Repr

namespace RuleTable

/-- Sets the value of a key in a list: in its place if it is there, else at the end. -/
def put (key value : String) : List (String × String) → List (String × String)
  | [] => [(key, value)]
  | (k, old) :: rest => if k = key then (k, value) :: rest else (k, old) :: put key value rest

def insert (table : RuleTable) (key value : String) : RuleTable :=
  ⟨put key value table.entries⟩

def ofEntries (entries : List (String × String)) : RuleTable :=
  entries.foldl (fun table entry => table.insert entry.1 entry.2) {}

/-- A key that is there keeps its place, and a new one comes last. -/
theorem keys_put (key value : String) (entries : List (String × String)) :
    (put key value entries).map Prod.fst =
      if key ∈ entries.map Prod.fst then entries.map Prod.fst
      else entries.map Prod.fst ++ [key] := by
  induction entries with
  | nil => simp [put]
  | cons entry rest ih =>
    obtain ⟨k, old⟩ := entry
    by_cases h : k = key
    · simp [put, h]
    · have h' : ¬ key = k := fun e => h e.symm
      simp only [put, h, if_false, List.map_cons, ih, List.mem_cons, h', false_or]
      split <;> simp

end RuleTable

structure Settings where
  authority : Option String := none
  source : DependencySource := .rest
  versionModification : Bool := true
  suffix : String := Version.defaultSuffix
  padding : Nat := Version.defaultPadding
  preserveSnapshot : Bool := false
  versionOverride : Option String := none
  ignoreUnresolvable : Bool := false
  reportNonAligned : Bool := false
  overrides : RuleTable := {}
  exclusions : RuleTable := {}
  moduleVersions : Keyed String := []
  deriving DecidableEq, Repr

namespace Settings

/-! ### Rules -/

def overrideRules (settings : Settings) : Except AlignmentError OverrideLayer :=
  Rule.parseAll settings.overrides.entries

def exclusionRules (settings : Settings) : Except AlignmentError (List Rule) :=
  (Rule.parseAll settings.exclusions.entries).map fun rules => rules.map Prod.fst

/-! ### Checks -/

/-- Checks the rules of both tables together, then the padding, the suffix and the authority. -/
def validate (settings : Settings) : Except AlignmentError Unit :=
  match Rule.parseAll (settings.overrides.entries ++ settings.exclusions.entries) with
  | .error error => .error error
  | .ok _ =>
    if settings.padding = 0 ∨ settings.padding > Version.maxPadding then
      .error (.configuration (.paddingOutOfRange Version.maxPadding settings.padding))
    else if Text.isBlank settings.suffix || Text.contains '-' settings.suffix then
      .error (.configuration (.suffixRefused settings.suffix))
    else if settings.source = .rest && settings.authority.isNone then .error .missingAuthority
    else .ok ()

/-! ### What the settings come to -/

/-- How the version of the build is changed, counting on from an earlier alignment. -/
def projectVersionSettings (settings : Settings) (previous : Option ModuleTree) :
    ProjectVersionSettings :=
  { enabled := settings.versionModification
    suffix := settings.suffix
    padding := settings.padding
    preserveSnapshot := settings.preserveSnapshot
    versionOverride := settings.versionOverride
    previousVersion := previous.bind fun tree => tree.info.version }

def barrierPolicy (settings : Settings) : BarrierPolicy :=
  { ignoreUnresolvable := settings.ignoreUnresolvable
    versionModification := settings.versionModification
    preserveSnapshot := settings.preserveSnapshot
    moduleVersions := settings.moduleVersions }

def withRules (exclusions : List Rule) (overrides : OverrideLayer) (aligner : Aligner) : Aligner :=
  let excluding :=
    if exclusions.isEmpty then aligner else aligner.withExclusion ⟨exclusions⟩
  if overrides.isEmpty then excluding else excluding.withAdjustment (.override overrides)

/-- The aligner of the settings. A disabled source needs no authority. -/
def aligner (settings : Settings) (authority : Option Authority) (previous : Option ModuleTree) :
    Except AlignmentError Aligner :=
  let asked := match settings.source with
    | .rest => authority
    | .disabled => none
  match settings.exclusionRules, settings.overrideRules, Aligner.new asked settings.source with
  | .error error, _, _ => .error error
  | .ok _, .error error, _ => .error error
  | .ok _, .ok _, .error error => .error error
  | .ok exclusions, .ok overrides, .ok started =>
    .ok <| withRules exclusions overrides <|
      (started.withAdjustment (.projectVersion (settings.projectVersionSettings previous)))
        |>.withAdjustment .pinDynamic

end Settings

end BuildAlignment
