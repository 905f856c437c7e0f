import BuildAlignment.Proofs.Keyed
import BuildAlignment.Proofs.Sequence
import BuildAlignment.Proofs.Settings.Reading
import BuildAlignment.Proofs.Text.Fields

/-!
# Settings after properties

Properties are applied in turn, and of several for one setting the last one counts.

* `lastValue?` is the last value that properties give for a key.
* `Assigned` says what properties make of a setting with a key of its own, `RuleTable.Updated` what
  they make of a table of rules. `Settings.Applied` says it of all settings.
* `Settings.Refused` holds of the properties whose value reads as nothing, with what is wrong with it.
* `Settings.applyProperty_cases` is about one property, and `Settings.Applied.append` puts two runs
  together. `Settings.applyProperties_outcome`: properties are applied up to the first one that is
  refused.
-/

namespace BuildAlignment

/-! ### The last value of a key -/

/-- The last value that properties give for a key. -/
def lastValue? (key : String) (properties : List (String × String)) : Option String :=
  Keyed.find? key properties.reverse

theorem lastValue?_append (key : String) (first second : List (String × String)) :
    lastValue? key (first ++ second) = (lastValue? key second).or (lastValue? key first) := by
  rw [lastValue?, List.reverse_append, Keyed.find?_append]
  rfl

theorem lastValue?_singleton (key given value : String) :
    lastValue? key [(given, value)] = if given = key then some value else none := rfl

/-! ### Settings with a key of their own -/

/-- A setting after properties. It is what the last value for its key reads as, and where no value
is given for its key it is what it was. -/
def Assigned {α : Type} (key : String) (reads : String → α → Prop)
    (properties : List (String × String)) (before after : α) : Prop :=
  match lastValue? key properties with
  | some value => reads value after
  | none => after = before

section Assigned

variable {α : Type} {key : String} {reads : String → α → Prop}

theorem assigned_nil (setting : α) : Assigned key reads [] setting setting := rfl

theorem assigned_singleton {given value : String} {before after : α} :
    Assigned key reads [(given, value)] before after ↔
      if given = key then reads value after else after = before := by
  rw [Assigned, lastValue?_singleton]
  by_cases hkey : given = key
  · rw [if_pos hkey, if_pos hkey]
  · rw [if_neg hkey, if_neg hkey]

theorem Assigned.append {first second : List (String × String)} {before between after : α}
    (hfirst : Assigned key reads first before between)
    (hsecond : Assigned key reads second between after) :
    Assigned key reads (first ++ second) before after := by
  rw [Assigned, lastValue?_append]
  rw [Assigned] at hsecond
  cases hlast : lastValue? key second with
  | some value =>
    rw [hlast] at hsecond
    exact hsecond
  | none =>
    rw [hlast] at hsecond
    rw [Option.none_or, show after = between from hsecond]
    exact hfirst

end Assigned

/-! ### Tables of rules -/

namespace RuleTable

def keys (table : RuleTable) : List String := table.entries.map Prod.fst

def value? (table : RuleTable) (key : String) : Option String := Keyed.find? key table.entries

theorem keys_insert (table : RuleTable) (key value : String) :
    (table.insert key value).keys = if key ∈ table.keys then table.keys else table.keys ++ [key] :=
  keys_put key value table.entries

theorem nodup_keys_insert {table : RuleTable} (h : table.keys.Nodup) (key value : String) :
    (table.insert key value).keys.Nodup := by
  rw [keys_insert]
  split
  · exact h
  · rename_i hkey
    rw [← List.concat_eq_append]
    exact h.concat hkey

/-- Tables that are made of entries, as those that are read from a document, have distinct keys. -/
theorem nodup_keys_ofEntries (entries : List (String × String)) :
    (ofEntries entries).keys.Nodup := by
  have hfold : ∀ table : RuleTable, table.keys.Nodup →
      (entries.foldl (fun known entry => known.insert entry.1 entry.2) table).keys.Nodup := by
    intro table htable
    induction entries generalizing table with
    | nil => exact htable
    | cons entry rest ih => exact ih _ (nodup_keys_insert htable entry.1 entry.2)
  exact hfold {} List.nodup_nil

theorem value?_insert (table : RuleTable) (key value other : String) :
    (table.insert key value).value? other
      = if key = other then some value else table.value? other := by
  rw [value?, value?, insert]
  induction table.entries with
  | nil => rfl
  | cons entry rest ih =>
    obtain ⟨known, old⟩ := entry
    by_cases hkey : known = key
    · subst hkey
      by_cases hother : known = other <;> simp [put, Keyed.find?, hother]
    · by_cases hother : known = other
      · subst hother
        have hne : ¬ key = known := fun heq => hkey heq.symm
        simp [put, Keyed.find?, hkey, hne]
      · simp only [put, if_neg hkey, Keyed.find?, if_neg hother, ih]

/-- A table after properties, whose keys name its rules behind a fixed beginning. -/
structure Updated (start : String) (properties : List (String × String))
    (before after : RuleTable) : Prop where
  /-- The keys that were there keep their places. Behind them come the keys that were named and were
  not there, in the order in which they were first named. -/
  keys : ∃ added, after.keys = before.keys ++ added ∧
    (∀ key, key ∈ added ↔ key ∉ before.keys ∧ start ++ key ∈ properties.map Prod.fst) ∧
    added.Pairwise fun first second =>
      (properties.map Prod.fst).idxOf (start ++ first)
        < (properties.map Prod.fst).idxOf (start ++ second)
  distinct : after.keys.Nodup
  /-- A key has the last value that was given for it, and else the one it had. -/
  values : ∀ key, after.value? key = (lastValue? (start ++ key) properties).or (before.value? key)

section Updated

variable {start : String} {table : RuleTable}

theorem updated_nil (start : String) (hdistinct : table.keys.Nodup) :
    Updated start [] table table :=
  ⟨⟨[], (List.append_nil _).symm, by simp, .nil⟩, hdistinct, fun _ => rfl⟩

/-- A property with another beginning leaves a table as it is. -/
theorem updated_of_other (hdistinct : table.keys.Nodup) {given : String} (value : String)
    (hother : ∀ key, given ≠ start ++ key) : Updated start [(given, value)] table table := by
  refine ⟨⟨[], (List.append_nil _).symm, fun key => ?_, .nil⟩, hdistinct, fun key => ?_⟩
  · have hne : ¬ start ++ key = given := fun heq => hother key heq.symm
    simp [hne]
  · rw [lastValue?_singleton, if_neg (hother key), Option.none_or]

/-- A property for a rule sets this rule. -/
theorem updated_insert (hdistinct : table.keys.Nodup) (key value : String) :
    Updated start [(start ++ key, value)] table (table.insert key value) := by
  have hsame : ∀ other, start ++ key = start ++ other ↔ key = other := fun other =>
    ⟨String.append_right_inj _ |>.1, fun heq => heq ▸ rfl⟩
  refine ⟨?_, ?_, fun other => ?_⟩
  · rw [keys_insert]
    by_cases hkey : key ∈ table.keys
    · refine ⟨[], by rw [if_pos hkey, List.append_nil], fun other => ?_, .nil⟩
      simp only [List.not_mem_nil, List.map_cons, List.map_nil, List.mem_singleton, false_iff,
        not_and]
      intro hnew heq
      exact hnew ((hsame other).1 heq.symm ▸ hkey)
    · refine ⟨[key], if_neg hkey, fun other => ?_, List.pairwise_singleton _ _⟩
      simp only [List.mem_singleton, List.map_cons, List.map_nil]
      constructor
      · rintro rfl
        exact ⟨hkey, rfl⟩
      · exact fun h => ((hsame other).1 h.2.symm).symm
  · exact nodup_keys_insert hdistinct key value
  · rw [value?_insert, lastValue?_singleton]
    by_cases hkey : key = other
    · rw [if_pos hkey, if_pos ((hsame other).2 hkey), Option.some_or]
    · rw [if_neg hkey, if_neg (mt (hsame other).1 hkey), Option.none_or]

theorem Updated.append {first second : List (String × String)} {before between after : RuleTable}
    (hfirst : Updated start first before between) (hsecond : Updated start second between after) :
    Updated start (first ++ second) before after := by
  obtain ⟨early, hearly, hmemEarly, horderEarly⟩ := hfirst.keys
  obtain ⟨late, hlate, hmemLate, horderLate⟩ := hsecond.keys
  -- What came in the first run was named there, and what came in the second run was not.
  have hnamed : ∀ key ∈ early, start ++ key ∈ first.map Prod.fst := fun key hkey =>
    ((hmemEarly key).1 hkey).2
  have hunnamed : ∀ key ∈ late, start ++ key ∉ first.map Prod.fst := by
    intro key hkey hgiven
    obtain ⟨hnew, -⟩ := (hmemLate key).1 hkey
    rw [hearly, List.mem_append, not_or] at hnew
    exact hnew.2 ((hmemEarly key).2 ⟨hnew.1, hgiven⟩)
  refine ⟨⟨early ++ late, ?_, fun key => ?_, ?_⟩, hsecond.distinct, fun key => ?_⟩
  · rw [hlate, hearly, List.append_assoc]
  · rw [List.mem_append, hmemEarly, hmemLate, hearly, List.mem_append, not_or, hmemEarly,
      List.map_append, List.mem_append]
    tauto
  · rw [List.map_append, List.pairwise_append]
    refine ⟨?_, ?_, ?_⟩
    · refine horderEarly.imp_of_mem fun {key other} hkey hother hlt => ?_
      rw [List.idxOf_append_of_mem (hnamed key hkey),
        List.idxOf_append_of_mem (hnamed other hother)]
      exact hlt
    · refine horderLate.imp_of_mem fun {key other} hkey hother hlt => ?_
      rw [List.idxOf_append_of_notMem (hunnamed key hkey),
        List.idxOf_append_of_notMem (hunnamed other hother)]
      exact Nat.add_lt_add_left hlt _
    · intro key hkey other hother
      rw [List.idxOf_append_of_mem (hnamed key hkey),
        List.idxOf_append_of_notMem (hunnamed other hother)]
      exact Nat.lt_add_right _ (List.idxOf_lt_length_of_mem (hnamed key hkey))
  · rw [hsecond.values, hfirst.values, lastValue?_append, Option.or_assoc]

end Updated

end RuleTable

/-! ### What one property does -/

namespace Settings

/-- The keys of the settings that are true or false. -/
def booleanKeys : List String :=
  ["versionModification", "versionSuffixSnapshot", "ignoreUnresolvableDependencies",
    "reportNonAligned"]

/-- The keys of the settings that do not take every value. -/
def checkedKeys : List String :=
  ["dependencySource", "versionIncrementalSuffixPadding"] ++ booleanKeys

def scalarKeys : List String :=
  ["authority", "versionIncrementalSuffix", "versionOverride"] ++ checkedKeys

/-- The properties whose value reads as nothing, with what is wrong with it. -/
inductive Refused : String × String → ConfigProblem → Prop
  | source {value name : String} (hcore : Text.HasCore value name)
      (h : ∀ source, ¬ ReadsSource value source) :
      Refused ("dependencySource", value) (.unknownSource name.toLower)
  | boolean {key value : String} (hkey : key ∈ booleanKeys) (h : ∀ truth, ¬ ReadsTruth value truth) :
      Refused (key, value) (.notBoolean key value)
  | number {value : String} (h : ∀ number, ¬ ReadsCount value number) :
      Refused ("versionIncrementalSuffixPadding", value)
        (.notNumber "versionIncrementalSuffixPadding" value)

/-- Settings after properties: what became of each of them. -/
structure Applied (properties : List (String × String)) (before after : Settings) : Prop where
  authority : Assigned "authority" ReadsText properties before.authority after.authority
  source : Assigned "dependencySource" ReadsSource properties before.source after.source
  versionModification : Assigned "versionModification" ReadsTruth properties
    before.versionModification after.versionModification
  suffix : Assigned "versionIncrementalSuffix" Eq properties before.suffix after.suffix
  padding : Assigned "versionIncrementalSuffixPadding" ReadsCount properties
    before.padding after.padding
  preserveSnapshot : Assigned "versionSuffixSnapshot" ReadsTruth properties
    before.preserveSnapshot after.preserveSnapshot
  versionOverride : Assigned "versionOverride" ReadsText properties
    before.versionOverride after.versionOverride
  ignoreUnresolvable : Assigned "ignoreUnresolvableDependencies" ReadsTruth properties
    before.ignoreUnresolvable after.ignoreUnresolvable
  reportNonAligned : Assigned "reportNonAligned" ReadsTruth properties
    before.reportNonAligned after.reportNonAligned
  overrides : RuleTable.Updated overrideStart properties before.overrides after.overrides
  exclusions : RuleTable.Updated exclusionStart properties before.exclusions after.exclusions
  moduleVersions : after.moduleVersions = before.moduleVersions

theorem refused_iff {key value : String} {problem : ConfigProblem} :
    Refused (key, value) problem ↔
      key = "dependencySource" ∧ (∀ source, ¬ ReadsSource value source) ∧
        (∃ name, Text.HasCore value name ∧ problem = .unknownSource name.toLower) ∨
      key ∈ booleanKeys ∧ (∀ truth, ¬ ReadsTruth value truth) ∧ problem = .notBoolean key value ∨
      key = "versionIncrementalSuffixPadding" ∧ (∀ number, ¬ ReadsCount value number) ∧
        problem = .notNumber key value := by
  constructor
  · intro h
    cases h with
    | source hcore h => exact .inl ⟨rfl, h, _, hcore, rfl⟩
    | boolean hkey h => exact .inr (.inl ⟨hkey, h, rfl⟩)
    | number h => exact .inr (.inr ⟨rfl, h, rfl⟩)
  · rintro (⟨rfl, h, name, hcore, rfl⟩ | ⟨hkey, h, rfl⟩ | ⟨rfl, h, rfl⟩)
    · exact .source hcore h
    · exact .boolean hkey h
    · exact .number h

/-- A result that there is exactly if a property is not refused, with the problem as the error. -/
def Judged {α : Type} (key value : String) (result : Except AlignmentError α) : Prop :=
  (∃ found, result = .ok found ∧ ∀ problem, ¬ Refused (key, value) problem) ∨
    ∃ problem, Refused (key, value) problem ∧ result = .error (.configuration problem)

section Judged

variable {α β : Type} {key value : String}

theorem Judged.map {result : Except AlignmentError α} (h : Judged key value result) (f : α → β) :
    Judged key value (result.map f) := by
  rcases h with ⟨found, rfl, hread⟩ | ⟨problem, hrefused, rfl⟩
  · exact .inl ⟨f found, rfl, hread⟩
  · exact .inr ⟨problem, hrefused, rfl⟩

theorem judged_ok (hkey : key ∉ checkedKeys) (found : α) : Judged key value (.ok found) := by
  refine .inl ⟨found, rfl, fun problem h => hkey ?_⟩
  rcases refused_iff.1 h with ⟨rfl, -⟩ | ⟨hboolean, -⟩ | ⟨rfl, -⟩
  · exact List.mem_append_left _ (by decide)
  · exact List.mem_append_right _ hboolean
  · exact List.mem_append_left _ (by decide)

/-- A value that is read is judged by what it reads as. -/
theorem Told.judged {reads : String → α → Prop} {problem : ConfigProblem}
    {result : Except AlignmentError α} (h : Told reads problem value result)
    (hrefused : (∀ found, ¬ reads value found) → Refused (key, value) problem)
    (hreads : ∀ other, Refused (key, value) other → ∀ found, ¬ reads value found) :
    Judged key value result := by
  rcases h with ⟨found, hfound, hread⟩ | ⟨herror, hnone⟩
  · exact .inl ⟨found, hfound, fun other hother => hreads other hother found hread⟩
  · exact .inr ⟨problem, hrefused hnone, herror⟩

theorem judged_parse (value : String) :
    Judged "dependencySource" value (DependencySource.parse value) := by
  have hcore : Text.HasCore value (Text.trim value) := Text.hasCore_iff.2 rfl
  refine (told_parse hcore).judged (.source hcore) fun other hother => ?_
  rcases refused_iff.1 hother with ⟨-, h, -⟩ | ⟨hkey, -⟩ | ⟨hkey, -⟩
  · exact h
  · exact absurd hkey (by decide)
  · exact absurd hkey (by decide)

theorem judged_parseBoolean (hkey : key ∈ booleanKeys) (value : String) :
    Judged key value (parseBoolean key value) := by
  refine (told_parseBoolean key value).judged (.boolean hkey) fun other hother => ?_
  rcases refused_iff.1 hother with ⟨rfl, -⟩ | ⟨-, h, -⟩ | ⟨rfl, -⟩
  · exact absurd hkey (by decide)
  · exact h
  · exact absurd hkey (by decide)

theorem judged_parseNumber (value : String) : Judged "versionIncrementalSuffixPadding" value
    (parseNumber "versionIncrementalSuffixPadding" value) := by
  refine (told_parseNumber _ value).judged .number fun other hother => ?_
  rcases refused_iff.1 hother with ⟨hkey, -⟩ | ⟨hkey, -⟩ | ⟨-, h, -⟩
  · exact absurd hkey (by decide)
  · exact absurd hkey (by decide)
  · exact h

/-- A property for a single setting fails exactly if it is refused. -/
theorem judged_applyScalar (settings : Settings) (key value : String) :
    Judged key value (settings.applyScalar key value) := by
  unfold applyScalar
  split
  · exact judged_ok (by decide) _
  · exact (judged_parse value).map _
  · exact (judged_parseBoolean (by decide) value).map _
  · exact judged_ok (by decide) _
  · exact (judged_parseNumber value).map _
  · exact (judged_parseBoolean (by decide) value).map _
  · exact judged_ok (by decide) _
  · exact (judged_parseBoolean (by decide) value).map _
  · exact (judged_parseBoolean (by decide) value).map _
  · rename_i hsource hmodification _ hpadding hsnapshot _ hignore hreport
    refine judged_ok ?_ _
    simpa [checkedKeys, booleanKeys] using
      ⟨hsource, hpadding, hmodification, hsnapshot, hignore, hreport⟩

end Judged

/-- A property whose key is not that of a single setting changes none of these. -/
theorem applied_of_not_scalar {settings : Settings} {key value : String} (hkey : key ∉ scalarKeys)
    {overrides exclusions : RuleTable}
    (hoverrides : RuleTable.Updated overrideStart [(key, value)] settings.overrides overrides)
    (hexclusions : RuleTable.Updated exclusionStart [(key, value)] settings.exclusions exclusions) :
    Applied [(key, value)] settings { settings with overrides, exclusions } := by
  simp only [scalarKeys, checkedKeys, booleanKeys, List.cons_append, List.nil_append,
    List.mem_cons, List.not_mem_nil, or_false, not_or] at hkey
  constructor <;> simp [assigned_singleton, *]

/-- What a property for a single setting does, where it is not one for a rule. -/
theorem applied_of_applyScalar {settings next : Settings} {key value : String}
    (hoverrides : RuleTable.Updated overrideStart [(key, value)] settings.overrides
      settings.overrides)
    (hexclusions : RuleTable.Updated exclusionStart [(key, value)] settings.exclusions
      settings.exclusions)
    (h : settings.applyScalar key value = .ok next) : Applied [(key, value)] settings next := by
  unfold applyScalar at h
  split at h
  -- Settings that take every value, settings whose value is read, and keys that name no setting.
  case h_1 | h_4 | h_7 =>
    cases h
    constructor <;> simp [assigned_singleton, readsText_iff, *]
  case h_2 =>
    obtain ⟨found, hread, rfl⟩ := of_map_eq_ok h
    have hreads := (told_parse (Text.hasCore_iff.2 rfl)).reads hread
    constructor <;> simp [assigned_singleton, *]
  case h_5 =>
    obtain ⟨found, hread, rfl⟩ := of_map_eq_ok h
    have hreads := (told_parseNumber _ value).reads hread
    constructor <;> simp [assigned_singleton, *]
  case h_3 | h_6 | h_8 | h_9 =>
    obtain ⟨found, hread, rfl⟩ := of_map_eq_ok h
    have hreads := (told_parseBoolean _ value).reads hread
    constructor <;> simp [assigned_singleton, *]
  case h_10 hauthority hsource hmodification hsuffix hpadding hsnapshot hversion hignore hreport =>
    cases h
    refine applied_of_not_scalar ?_ hoverrides hexclusions
    simpa [scalarKeys, checkedKeys, booleanKeys] using ⟨hauthority, hsuffix, hversion, hsource,
      hpadding, hmodification, hsnapshot, hignore, hreport⟩

/-! ### Keys of rules -/

/-- A key with another beginning names no rule. -/
theorem ne_append_of_stripStart? {start key : String} (h : Text.stripStart? start key = none)
    (rule : String) : key ≠ start ++ rule := by
  intro heq
  rw [Text.stripStart?_eq_some_iff.2 heq] at h
  cases h

/-- No single setting has a key with the beginning of those of the rules. -/
theorem not_scalar_of_rule (start : String) (hstart : start ∈ [overrideStart, exclusionStart])
    (rule : String) : start ++ rule ∉ scalarKeys := by
  have hnone : ∀ start ∈ [overrideStart, exclusionStart], ∀ key ∈ scalarKeys,
      Text.stripStart? start key = none := by decide
  exact fun hkey => ne_append_of_stripStart? (hnone start hstart _ hkey) rule rfl

/-- No key names both an override and an exclusion. -/
theorem override_ne_exclusion (first second : String) :
    overrideStart ++ first ≠ exclusionStart ++ second := by
  intro heq
  have htake := congrArg (fun text => text.toList.take 11) heq
  simp only [String.toList_append] at htake
  rw [List.take_append_of_le_length (by decide), List.take_append_of_le_length (by decide)] at htake
  exact absurd htake (by decide)

/-- What one property does: it is refused, or it is applied. -/
theorem applyProperty_cases {settings : Settings} (hoverrides : settings.overrides.keys.Nodup)
    (hexclusions : settings.exclusions.keys.Nodup) (key value : String) :
    Judged key value (settings.applyProperty key value) ∧
      ∀ next, settings.applyProperty key value = .ok next →
        Applied [(key, value)] settings next := by
  rw [applyProperty]
  split
  · rename_i rule hrule
    rw [Text.stripStart?_eq_some_iff] at hrule
    subst hrule
    have hkey := not_scalar_of_rule overrideStart (by decide) rule
    refine ⟨judged_ok (fun h => hkey (List.mem_append_right _ h)) _, fun next h => ?_⟩
    cases h
    exact applied_of_not_scalar hkey (RuleTable.updated_insert hoverrides rule value)
      (RuleTable.updated_of_other hexclusions value fun other => override_ne_exclusion rule other)
  · rename_i hnone
    have hother := RuleTable.updated_of_other hoverrides value (ne_append_of_stripStart? hnone)
    split
    · rename_i rule hrule
      rw [Text.stripStart?_eq_some_iff] at hrule
      subst hrule
      have hkey := not_scalar_of_rule exclusionStart (by decide) rule
      refine ⟨judged_ok (fun h => hkey (List.mem_append_right _ h)) _, fun next h => ?_⟩
      cases h
      exact applied_of_not_scalar hkey hother (RuleTable.updated_insert hexclusions rule value)
    · rename_i hnone'
      refine ⟨judged_applyScalar settings key value, fun next h => ?_⟩
      exact applied_of_applyScalar hother
        (RuleTable.updated_of_other hexclusions value (ne_append_of_stripStart? hnone')) h

/-! ### Properties in turn -/

theorem applied_nil {settings : Settings} (hoverrides : settings.overrides.keys.Nodup)
    (hexclusions : settings.exclusions.keys.Nodup) : Applied [] settings settings where
  authority := assigned_nil _
  source := assigned_nil _
  versionModification := assigned_nil _
  suffix := assigned_nil _
  padding := assigned_nil _
  preserveSnapshot := assigned_nil _
  versionOverride := assigned_nil _
  ignoreUnresolvable := assigned_nil _
  reportNonAligned := assigned_nil _
  overrides := RuleTable.updated_nil _ hoverrides
  exclusions := RuleTable.updated_nil _ hexclusions
  moduleVersions := rfl

theorem Applied.append {first second : List (String × String)} {before between after : Settings}
    (hfirst : Applied first before between) (hsecond : Applied second between after) :
    Applied (first ++ second) before after where
  authority := hfirst.authority.append hsecond.authority
  source := hfirst.source.append hsecond.source
  versionModification := hfirst.versionModification.append hsecond.versionModification
  suffix := hfirst.suffix.append hsecond.suffix
  padding := hfirst.padding.append hsecond.padding
  preserveSnapshot := hfirst.preserveSnapshot.append hsecond.preserveSnapshot
  versionOverride := hfirst.versionOverride.append hsecond.versionOverride
  ignoreUnresolvable := hfirst.ignoreUnresolvable.append hsecond.ignoreUnresolvable
  reportNonAligned := hfirst.reportNonAligned.append hsecond.reportNonAligned
  overrides := hfirst.overrides.append hsecond.overrides
  exclusions := hfirst.exclusions.append hsecond.exclusions
  moduleVersions := hsecond.moduleVersions.trans hfirst.moduleVersions

theorem applyProperties_cons_of_ok {settings next : Settings} {key value : String}
    (h : settings.applyProperty key value = .ok next) (rest : List (String × String)) :
    settings.applyProperties ((key, value) :: rest) = next.applyProperties rest := by
  rw [applyProperties, h]

/-- A property whose key names no setting and no rule changes nothing. -/
theorem applyProperty_of_unknown (settings : Settings) {key : String} (value : String)
    (hkey : key ∉ scalarKeys) (hoverride : ∀ rule, key ≠ overrideStart ++ rule)
    (hexclusion : ∀ rule, key ≠ exclusionStart ++ rule) :
    settings.applyProperty key value = .ok settings := by
  have hscalar : settings.applyScalar key value = .ok settings := by
    unfold applyScalar
    split
    case h_10 => rfl
    all_goals exact absurd (by decide) hkey
  rw [applyProperty]
  split
  · rename_i rule hrule
    exact absurd (Text.stripStart?_eq_some_iff.1 hrule) (hoverride rule)
  · split
    · rename_i rule hrule
      exact absurd (Text.stripStart?_eq_some_iff.1 hrule) (hexclusion rule)
    · exact hscalar

theorem applyProperties_of_unknown (settings : Settings) (before : List (String × String))
    {key : String} (value : String) (later : List (String × String)) (hkey : key ∉ scalarKeys)
    (hoverride : ∀ rule, key ≠ overrideStart ++ rule)
    (hexclusion : ∀ rule, key ≠ exclusionStart ++ rule) :
    settings.applyProperties (before ++ (key, value) :: later)
      = settings.applyProperties (before ++ later) := by
  induction before generalizing settings with
  | nil =>
    rw [List.nil_append, List.nil_append, applyProperties,
      applyProperty_of_unknown settings value hkey hoverride hexclusion]
  | cons property rest ih =>
    obtain ⟨given, own⟩ := property
    rw [List.cons_append, List.cons_append, applyProperties, applyProperties]
    split
    · exact ih _
    · rfl

/-- Properties are applied in turn. Where none of them is refused, every setting becomes what the
last value for its key reads as, and every table of rules has its old keys at their places, the new
ones behind them in order of first appearance, and the last value given for each key. Where one is
refused, the first such property is reported, and the settings are those that the properties before
it come to. A property whose key names no setting and no rule makes no difference. -/
theorem applyProperties_outcome (settings : Settings) (hoverrides : settings.overrides.keys.Nodup)
    (hexclusions : settings.exclusions.keys.Nodup) :
    (∀ properties : List (String × String),
      (∃ next, settings.applyProperties properties = (next, .ok ()) ∧
        (∀ property ∈ properties, ∀ problem, ¬ Refused property problem) ∧
        Applied properties settings next) ∨
      ∃ before property later problem next, properties = before ++ property :: later ∧
        settings.applyProperties properties = (next, .error (.configuration problem)) ∧
        (∀ earlier ∈ before, ∀ other, ¬ Refused earlier other) ∧ Refused property problem ∧
        settings.applyProperties before = (next, .ok ()) ∧ Applied before settings next) ∧
    ∀ before key value later, key ∉ scalarKeys → (∀ rule, key ≠ overrideStart ++ rule) →
      (∀ rule, key ≠ exclusionStart ++ rule) →
      settings.applyProperties (before ++ (key, value) :: later)
        = settings.applyProperties (before ++ later) := by
  refine ⟨fun properties => ?_, applyProperties_of_unknown settings⟩
  induction properties generalizing settings with
  | nil =>
    refine .inl ⟨settings, rfl, ?_, applied_nil hoverrides hexclusions⟩
    exact fun property hproperty => absurd hproperty List.not_mem_nil
  | cons property rest ih =>
    obtain ⟨key, value⟩ := property
    obtain ⟨hjudged, happlied⟩ := applyProperty_cases hoverrides hexclusions key value
    rcases hjudged with ⟨between, hone, hread⟩ | ⟨problem, hrefused, herror⟩
    · have hfirst := happlied between hone
      rcases ih between hfirst.overrides.distinct hfirst.exclusions.distinct with
        ⟨next, hnext, hothers, hsecond⟩ |
        ⟨before, refused, later, problem, next, rfl, hnext, hothers, hrefused, hbefore, hsecond⟩
      · refine .inl ⟨next, ?_, List.forall_mem_cons.2 ⟨hread, hothers⟩, hfirst.append hsecond⟩
        rw [applyProperties_cons_of_ok hone, hnext]
      · refine .inr ⟨(key, value) :: before, refused, later, problem, next, rfl, ?_,
          List.forall_mem_cons.2 ⟨hread, hothers⟩, hrefused, ?_, hfirst.append hsecond⟩
        · rw [applyProperties_cons_of_ok hone, hnext]
        · rw [applyProperties_cons_of_ok hone, hbefore]
    · refine .inr ⟨[], (key, value), rest, problem, settings, rfl, ?_, ?_, hrefused, rfl,
        applied_nil hoverrides hexclusions⟩
      · rw [applyProperties, herror]
      · exact fun earlier hearlier => absurd hearlier List.not_mem_nil

/-- Rules and settings that are given twice, values of every kind, and an unknown key. Then a setting
that is taken away, and a truth value that is none. -/
theorem applyProperties_outcome_of_repeated :
    let settings : Settings :=
      { authority := some "old.toml"
        overrides := ⟨[("b:*@*", "1"), ("a:*@*", "2")]⟩
        exclusions := ⟨[("t:*@*", "")]⟩ }
    let given : List (String × String) :=
      [("dependencyOverride.d:*@*", "5"), ("versionOverride", ""), ("dependencySource", " NONE"),
        ("versionIncrementalSuffixPadding", "+007"), ("dependencyOverride.c:*@*", "3"),
        ("colour", "red"), ("dependencyOverride.b:*@*", "4"), ("versionModification", "False"),
        ("dependencyOverride.d:*@*", "6"), ("authority", "new.toml"), ("versionOverride", "7.0"),
        ("dependencyExclusion.m:*@*", ""), ("versionSuffixSnapshot", "TRUE"),
        ("reportNonAligned", "")]
    let refused : List (String × String) :=
      given ++ ("authority", "") :: ("reportNonAligned", "perhaps") :: [("versionOverride", "9")]
    let next : Settings :=
      { settings with
        authority := some "new.toml"
        source := .disabled
        versionModification := false
        padding := 7
        preserveSnapshot := true
        versionOverride := some "7.0"
        reportNonAligned := true
        overrides := ⟨[("b:*@*", "4"), ("a:*@*", "2"), ("d:*@*", "6"), ("c:*@*", "3")]⟩
        exclusions := ⟨[("t:*@*", ""), ("m:*@*", "")]⟩ }
    settings.overrides.keys.Nodup ∧ settings.exclusions.keys.Nodup ∧
      settings.applyProperties given = (next, .ok ()) ∧ Applied given settings next ∧
      (ReadsText "new.toml" (some "new.toml") ∧ ReadsSource " NONE" .disabled ∧
        ReadsTruth "False" false ∧ ReadsCount "+007" 7) ∧
      settings.applyProperties refused = ({ next with authority := none },
        .error (.configuration (.notBoolean "reportNonAligned" "perhaps"))) ∧
      Refused ("reportNonAligned", "perhaps") (.notBoolean "reportNonAligned" "perhaps") := by
  intro settings given refused next
  have hoverrides : settings.overrides.keys.Nodup := by decide
  have hexclusions : settings.exclusions.keys.Nodup := by decide
  have hgiven : settings.applyProperties given = (next, .ok ()) := by rfl
  have hrefused : settings.applyProperties refused = ({ next with authority := none },
      .error (.configuration (.notBoolean "reportNonAligned" "perhaps"))) := by rfl
  have houtcome := (applyProperties_outcome settings hoverrides hexclusions).1
  have happlied : Applied given settings next := by
    rcases houtcome given with ⟨found, hfound, -, happlied⟩ | ⟨_, _, _, _, _, -, herror, -⟩
    · rw [hgiven] at hfound
      cases hfound
      exact happlied
    · rw [hgiven] at herror
      cases herror
  refine ⟨hoverrides, hexclusions, hgiven, happlied,
    ⟨happlied.authority, happlied.source, happlied.versionModification, happlied.padding⟩,
    hrefused, ?_⟩
  have hperhaps : parseBoolean "reportNonAligned" "perhaps"
      = .error (.configuration (.notBoolean "reportNonAligned" "perhaps")) := by rfl
  rcases told_parseBoolean "reportNonAligned" "perhaps" with ⟨found, hfound, -⟩ | ⟨-, hnothing⟩
  · rw [hperhaps] at hfound
    cases hfound
  · exact .boolean (by decide) hnothing

end Settings

end BuildAlignment
