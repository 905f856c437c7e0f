import BuildAlignment.Proofs.Text.Spelling
import BuildAlignment.Settings.Property

/-!
# What the values of properties read as

Each kind of value is described by itself, and the function that reads it gives what is described.

* `Settings.ReadsText`, `Settings.ReadsTruth`, `Settings.ReadsCount` and `Settings.ReadsSource`
  relate a value and what it reads as.
* `Settings.Told` holds of a result that is what a value reads as, or the problem if it reads as
  nothing. `Settings.told_parseBoolean`, `Settings.told_parseNumber` and `Settings.told_parse` are
  about the functions.
-/

namespace BuildAlignment.Settings

/-- A text that can be missing is missing exactly if the value is empty. -/
inductive ReadsText : String → Option String → Prop
  | given {value : String} (h : value ≠ "") : ReadsText value (some value)
  | missing : ReadsText "" none

/-- The words for truth values may have letters of both cases. No value at all means true. -/
inductive ReadsTruth : String → Bool → Prop
  | yes {value : String} (h : value.toLower = "true") : ReadsTruth value true
  | empty : ReadsTruth "" true
  | no {value : String} (h : value.toLower = "false") : ReadsTruth value false

/-- A number is written in decimal digits, with or without a plus sign, and has at most sixty-four
bits. -/
def ReadsCount (value : String) (number : Nat) : Prop :=
  ∃ digits : List Char, (value.toList = digits ∨ value.toList = '+' :: digits) ∧
    digits ≠ [] ∧ (∀ d ∈ digits, d.isDigit = true) ∧
      number = Nat.ofDigitChars 10 digits 0 ∧ number < UInt64.size

/-- A source is named in letters of both cases, and blank characters may stand around its name. -/
inductive ReadsSource : String → DependencySource → Prop
  | rest {value name : String} (hcore : Text.HasCore value name) (h : name.toLower = "rest") :
      ReadsSource value .rest
  | disabled {value name : String} (hcore : Text.HasCore value name) (h : name.toLower = "none") :
      ReadsSource value .disabled

theorem readsText_iff {value : String} {found : Option String} :
    ReadsText value found ↔ found = unlessEmpty value := by
  rw [unlessEmpty]
  constructor
  · rintro (h | -)
    · rw [if_neg h]
    · rfl
  · rintro rfl
    by_cases h : value = ""
    · rw [if_pos h, h]
      exact .missing
    · rw [if_neg h]
      exact .given h

/-! ### Values that do not always read as something -/

/-- The result of reading a value is what it reads as, and the problem if it reads as nothing. -/
def Told {α : Type} (reads : String → α → Prop) (problem : ConfigProblem) (value : String)
    (result : Except AlignmentError α) : Prop :=
  (∃ found, result = .ok found ∧ reads value found) ∨
    result = .error (.configuration problem) ∧ ∀ found, ¬ reads value found

theorem Told.reads {α : Type} {reads : String → α → Prop} {problem : ConfigProblem} {value : String}
    {result : Except AlignmentError α} (h : Told reads problem value result) {found : α}
    (hfound : result = .ok found) : reads value found := by
  rcases h with ⟨other, hother, hreads⟩ | ⟨herror, -⟩
  · rw [hfound, Except.ok.injEq] at hother
    rwa [hother]
  · rw [hfound] at herror
    cases herror

theorem told_parseBoolean (key value : String) :
    Told ReadsTruth (.notBoolean key value) value (parseBoolean key value) := by
  rw [parseBoolean, Text.asciiLower_eq_toLower]
  have hempty : value.toLower = "" ↔ value = "" := by
    rw [show value.toLower = value.map Char.toLower from rfl, String.map_eq_empty]
  by_cases htrue : value.toLower = "true" ∨ value.toLower = ""
  · left
    refine ⟨true, if_pos htrue, ?_⟩
    rcases htrue with h | h
    · exact .yes h
    · rw [hempty.1 h]
      exact .empty
  · rw [if_neg htrue]
    rw [not_or] at htrue
    by_cases hfalse : value.toLower = "false"
    · exact .inl ⟨false, if_pos hfalse, .no hfalse⟩
    · refine .inr ⟨if_neg hfalse, ?_⟩
      rintro _ (h | - | h)
      · exact htrue.1 h
      · exact htrue.2 (hempty.2 rfl)
      · exact hfalse h

theorem readsCount_iff {value : String} {number : Nat} :
    ReadsCount value number ↔ parseCount? value = some number := by
  rw [parseCount?]
  constructor
  · rintro ⟨digits, hvalue | hvalue, hreads⟩
    · rw [hvalue]
      split
      -- No digit is a plus sign.
      · obtain ⟨-, hdigits, -⟩ := hreads
        exact absurd (hdigits '+' List.mem_cons_self) (by decide)
      · exact Text.number?_eq_some_iff.2 hreads
    · rw [hvalue]
      exact Text.number?_eq_some_iff.2 hreads
  · intro h
    split at h
    · rename_i digits hvalue
      exact ⟨digits, .inr hvalue, Text.number?_eq_some_iff.1 h⟩
    · exact ⟨value.toList, .inl rfl, Text.number?_eq_some_iff.1 h⟩

theorem told_parseNumber (key value : String) :
    Told ReadsCount (.notNumber key value) value (parseNumber key value) := by
  rw [parseNumber]
  cases h : parseCount? value with
  | some number => exact .inl ⟨number, rfl, readsCount_iff.2 h⟩
  | none =>
    refine .inr ⟨rfl, fun number hreads => ?_⟩
    rw [readsCount_iff.1 hreads] at h
    cases h

theorem told_parse {value name : String} (hcore : Text.HasCore value name) :
    Told ReadsSource (.unknownSource name.toLower) value (DependencySource.parse value) := by
  have hname : ∀ {other}, Text.HasCore value other → other = name := fun hother =>
    (Text.hasCore_iff.1 hother).symm.trans (Text.hasCore_iff.1 hcore)
  rw [DependencySource.parse, Text.hasCore_iff.1 hcore, Text.asciiLower_eq_toLower,
    DependencySource.ofDisplay?]
  by_cases hrest : name.toLower = "rest"
  · rw [if_pos hrest]
    exact .inl ⟨.rest, rfl, .rest hcore hrest⟩
  · rw [if_neg hrest]
    by_cases hnone : name.toLower = "none"
    · rw [if_pos hnone]
      exact .inl ⟨.disabled, rfl, .disabled hcore hnone⟩
    · rw [if_neg hnone]
      refine .inr ⟨rfl, ?_⟩
      rintro _ (⟨hother, h⟩ | ⟨hother, h⟩)
      · exact hrest (hname hother ▸ h)
      · exact hnone (hname hother ▸ h)

end BuildAlignment.Settings
