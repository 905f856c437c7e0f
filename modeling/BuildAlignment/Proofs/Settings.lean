import BuildAlignment.Proofs.Rule.Batch
import BuildAlignment.Settings

/-!
# Settings that pass the checks

* `Settings.of_validate_eq_ok`: what the checks promise of the padding and the suffix.
* `Settings.ruleKeys` are the rule keys of both tables.
* `Settings.Ready` holds of settings whose rules can be read and that come to an aligner.
* `Settings.validate_rules`: the checks report every malformed rule key, and settings that pass them
  are ready. The aligner of settings fails because of a rule key exactly if the checks do.
-/

namespace BuildAlignment.Settings

variable {settings : Settings}

/-- The padding of settings that pass the checks is in its range, and the suffix is one part that
says something. -/
theorem of_validate_eq_ok (valid : settings.validate = .ok ()) :
    settings.padding ≠ 0 ∧ settings.padding ≤ Version.maxPadding ∧
      Text.isBlank settings.suffix = false ∧ Text.contains '-' settings.suffix = false := by
  rw [validate] at valid
  split at valid
  · cases valid
  · split at valid
    · cases valid
    · rename_i hpadding
      split at valid
      · cases valid
      · rename_i hsuffix
        rw [not_or, gt_iff_lt, Nat.not_lt] at hpadding
        rw [Bool.or_eq_true, not_or, Bool.not_eq_true, Bool.not_eq_true] at hsuffix
        exact ⟨hpadding.1, hpadding.2, hsuffix.1, hsuffix.2⟩

theorem suffix_ne_empty_of_valid (valid : settings.validate = .ok ()) : settings.suffix ≠ "" := by
  intro hempty
  have hblank := (of_validate_eq_ok valid).2.2.1
  rw [hempty] at hblank
  exact absurd hblank (by decide)

/-! ### Rules -/

def ruleKeys (settings : Settings) : List String :=
  settings.overrides.entries.map Prod.fst ++ settings.exclusions.entries.map Prod.fst

/-- Settings that can be used. They have an aligner whatever the earlier alignment was, with every
authority, and without one where none is asked. Every entry of their tables is a rule. -/
structure Ready (settings : Settings) : Prop where
  aligner : ∀ (authority : Option Authority) (previous : Option ModuleTree),
    authority.isSome ∨ settings.source = .disabled →
      ∃ aligner, settings.aligner authority previous = .ok aligner
  overrides : ∃ rules, settings.overrideRules = .ok rules ∧
    Rule.ReadEach settings.overrides.entries rules
  exclusions : ∃ rules, settings.exclusionRules = .ok rules ∧
    List.Forall₂ (fun entry rule => Rule.parse entry.1 = .ok rule) settings.exclusions.entries rules

theorem exclusionRules_of_ok {rules : List (Rule × String)}
    (h : Rule.parseAll settings.exclusions.entries = .ok rules) :
    settings.exclusionRules = .ok (rules.map Prod.fst) := by
  rw [exclusionRules, h]
  rfl

theorem exclusionRules_of_error {error : AlignmentError}
    (h : Rule.parseAll settings.exclusions.entries = .error error) :
    settings.exclusionRules = .error error := by
  rw [exclusionRules, h]
  rfl

/-- The checks begin with the rule keys, and nothing that is checked later is about them. -/
theorem validate_cases (settings : Settings) :
    (Rule.malformed settings.ruleKeys = [] ∧
      ∀ key problems, settings.validate ≠ .error (.malformedRule key problems)) ∨
    (Rule.malformed settings.ruleKeys ≠ [] ∧ ∃ error, settings.validate = .error error ∧
      Rule.Reported (Rule.malformed settings.ruleKeys) error) := by
  have hcases := Rule.parseAll_cases (settings.overrides.entries ++ settings.exclusions.entries)
  rw [List.map_append] at hcases
  rcases hcases with ⟨hnone, rules, hrules, -⟩ | ⟨hsome, error, herror, hreported⟩
  · refine .inl ⟨hnone, fun key problems h => ?_⟩
    rw [validate, hrules] at h
    dsimp only at h
    split at h
    · cases h
    · split at h
      · cases h
      · split at h <;> cases h
  · refine .inr ⟨hsome, error, ?_, hreported⟩
    rw [validate, herror]

/-- Where all rules are read, only an authority can be missing to an aligner. -/
theorem aligner_of_read {overrides : OverrideLayer} {exclusions : List Rule}
    (hoverrides : settings.overrideRules = .ok overrides)
    (hexclusions : settings.exclusionRules = .ok exclusions)
    (authority : Option Authority) (previous : Option ModuleTree) :
    (∃ aligner, settings.aligner authority previous = .ok aligner) ∨
      settings.aligner authority previous = .error .missingAuthority ∧
        authority = none ∧ settings.source = .rest := by
  rw [aligner, hexclusions, hoverrides]
  cases settings.source with
  | disabled => exact .inl ⟨_, rfl⟩
  | rest =>
    cases authority with
    | none => exact .inr ⟨rfl, rfl, rfl⟩
    | some own => exact .inl ⟨_, rfl⟩

theorem ready_of_wellFormed (h : Rule.malformed settings.ruleKeys = []) : settings.Ready := by
  rw [ruleKeys, Rule.malformed_append, List.append_eq_nil_iff] at h
  obtain ⟨overrides, hoverrides, hread⟩ :=
    ((Rule.parseAll_cases settings.overrides.entries).resolve_right fun hbad => hbad.1 h.1).2
  obtain ⟨pairs, hpairs, hread'⟩ :=
    ((Rule.parseAll_cases settings.exclusions.entries).resolve_right fun hbad => hbad.1 h.2).2
  have hexclusions := exclusionRules_of_ok hpairs
  refine ⟨fun authority previous hgiven => ?_, ⟨overrides, hoverrides, hread⟩,
    pairs.map Prod.fst, hexclusions, ?_⟩
  · rcases aligner_of_read hoverrides hexclusions authority previous with
      hdone | ⟨-, hnone, hrest⟩
    · exact hdone
    · rw [hnone, hrest] at hgiven
      rcases hgiven with hgiven | hgiven <;> cases hgiven
  · rw [List.forall₂_map_right_iff]
    exact hread'.imp fun entry rule hentry => hentry.1

/-- An aligner that fails because of a rule key has a malformed key in one of the tables. -/
theorem malformed_of_aligner {authority : Option Authority} {previous : Option ModuleTree}
    {key : String} {problems : List RuleProblem}
    (h : settings.aligner authority previous = .error (.malformedRule key problems)) :
    Rule.malformed settings.ruleKeys ≠ [] := by
  intro hnone
  obtain ⟨-, ⟨overrides, hoverrides, -⟩, exclusions, hexclusions, -⟩ := ready_of_wellFormed hnone
  rcases aligner_of_read hoverrides hexclusions authority previous with
    ⟨aligner, hdone⟩ | ⟨hmissing, -⟩
  · rw [h] at hdone
    cases hdone
  · rw [h] at hmissing
    cases hmissing

/-- A malformed key in one of the tables is what an aligner fails because of. -/
theorem aligner_of_malformed (h : Rule.malformed settings.ruleKeys ≠ [])
    (authority : Option Authority) (previous : Option ModuleTree) :
    ∃ key problems, settings.aligner authority previous = .error (.malformedRule key problems) := by
  rcases Rule.parseAll_cases settings.exclusions.entries with
    ⟨hnone, pairs, hpairs, -⟩ | ⟨-, error, herror, hreported⟩
  · rcases Rule.parseAll_cases settings.overrides.entries with
      ⟨hnone', -⟩ | ⟨-, error, herror, hreported⟩
    · refine absurd ?_ h
      rw [ruleKeys, Rule.malformed_append, hnone, hnone']
      rfl
    · obtain ⟨key, problems, rfl⟩ := hreported.exists_eq
      refine ⟨key, problems, ?_⟩
      rw [aligner, exclusionRules_of_ok hpairs, overrideRules, herror]
  · obtain ⟨key, problems, rfl⟩ := hreported.exists_eq
    refine ⟨key, problems, ?_⟩
    rw [aligner, exclusionRules_of_error herror]

/-- The checks fail because of a rule key exactly if a key of one of the tables is no rule, and then
the error reports every such key: those of the overrides and then those of the exclusions, in the
order of the tables. Settings that pass the checks are ready. Whether an aligner fails because of a
rule key does not depend on the authority or the earlier alignment: it does so exactly if the checks
do. -/
theorem validate_rules (settings : Settings) :
    ((∃ key problems, settings.validate = .error (.malformedRule key problems)) ↔
      ∃ key ∈ settings.ruleKeys, ¬ ∃ rule, Rule.parse key = .ok rule) ∧
    (∀ key problems, settings.validate = .error (.malformedRule key problems) →
      Rule.Reported (Rule.malformed settings.ruleKeys) (.malformedRule key problems)) ∧
    (settings.validate = .ok () → settings.Ready) ∧
    ∀ authority previous,
      (∃ key problems, settings.aligner authority previous = .error (.malformedRule key problems)) ↔
        ∃ key problems, settings.validate = .error (.malformedRule key problems) := by
  have hfails : (∃ key problems, settings.validate = .error (.malformedRule key problems)) ↔
      Rule.malformed settings.ruleKeys ≠ [] := by
    rcases validate_cases settings with ⟨hnone, hother⟩ | ⟨hsome, error, herror, hreported⟩
    · exact iff_of_false (fun ⟨key, problems, h⟩ => hother key problems h) (not_not_intro hnone)
    · obtain ⟨key, problems, rfl⟩ := hreported.exists_eq
      exact iff_of_true ⟨key, problems, herror⟩ hsome
  refine ⟨?_, fun key problems h => ?_, fun valid => ?_, fun authority previous => ?_⟩
  · rw [hfails]
    constructor
    · intro hsome
      obtain ⟨key, hkey⟩ := List.exists_mem_of_ne_nil _ hsome
      exact ⟨key, Rule.mem_malformed.1 hkey⟩
    · rintro ⟨key, hkey⟩
      exact List.ne_nil_of_mem (Rule.mem_malformed.2 hkey)
  · rcases validate_cases settings with ⟨-, hother⟩ | ⟨-, error, herror, hreported⟩
    · exact absurd h (hother key problems)
    · rw [h] at herror
      cases herror
      exact hreported
  · refine ready_of_wellFormed (Classical.not_not.1 fun hsome => ?_)
    obtain ⟨key, problems, h⟩ := hfails.2 hsome
    rw [valid] at h
    cases h
  · rw [hfails]
    exact ⟨fun ⟨key, problems, h⟩ => malformed_of_aligner h,
      fun hsome => aligner_of_malformed hsome authority previous⟩

/-- A malformed key in each of the tables, beside keys that are rules. -/
theorem validate_rules_of_two_malformed :
    let mended : Settings :=
      { source := .disabled
        overrides := ⟨[("org.lib:*@*", "1.0")]⟩
        exclusions := ⟨[("org.test@org.acme:app", "")]⟩ }
    let settings : Settings :=
      { mended with
        overrides := ⟨[("org.lib:*@*", "1.0"), ("org.lib", "2.0")]⟩
        exclusions := ⟨[("a@b@c", ""), ("org.test@org.acme:app", "")]⟩ }
    let problems : List RuleProblem :=
      [.ofKey "org.lib" ["missing '@' between dependency and module patterns"],
        .ofKey "a@b@c" ["expected exactly one '@', found 2"]]
    settings.validate = .error (.malformedRule "org.lib, a@b@c" problems) ∧
      Rule.Reported ["org.lib", "a@b@c"] (.malformedRule "org.lib, a@b@c" problems) ∧
      (∃ key found, settings.aligner (some fun _ => .ok []) none = .error (.malformedRule key found)) ∧
      mended.validate = .ok () ∧ mended.Ready := by
  intro mended settings problems
  have hfails : settings.validate = .error (.malformedRule "org.lib, a@b@c" problems) := by decide
  have hvalid : mended.validate = .ok () := by decide
  obtain ⟨-, hreports, -, haligner⟩ := validate_rules settings
  obtain ⟨-, -, hready, -⟩ := validate_rules mended
  exact ⟨hfails, hreports _ _ hfails, (haligner _ _).2 ⟨_, _, hfails⟩, hvalid, hready hvalid⟩

end BuildAlignment.Settings
