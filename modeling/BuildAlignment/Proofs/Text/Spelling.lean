import BuildAlignment.Text.Blank
import BuildAlignment.Text.Number
import Mathlib.Data.List.DropRight

/-!
# What a text spells

Trimming, folding the case and reading digits, said with core or without a function at all.

* `Text.trim_eq_self_iff`: nothing is cut off a text whose ends are not blank.
* `Text.HasCore` says what is left of a text without the blank characters around it. By
  `Text.hasCore_iff` trimming finds it.
* `Text.asciiLower_eq_toLower` and `Text.valueOf_eq_ofDigitChars`: folding the case and the number of
  digits are those of core. By `Text.number?_eq_some_iff` a number is read from digits exactly where
  it fits into sixty-four bits.
-/

namespace BuildAlignment.Text

/-! ### Trimming -/

theorem length_trimChars_le (cs : List Char) : (trimChars cs).length ≤ cs.length :=
  Nat.le_trans (List.rdropWhile_prefix _ _).length_le (List.dropWhile_suffix _).length_le

theorem trimChars_eq_self_iff {cs : List Char} : trimChars cs = cs ↔
    (∀ c ∈ cs.head?, isBlankChar c = false) ∧ ∀ c ∈ cs.getLast?, isBlankChar c = false := by
  have hends : cs.dropWhile isBlankChar = cs ∧ cs.rdropWhile isBlankChar = cs ↔
      (∀ c ∈ cs.head?, isBlankChar c = false) ∧ ∀ c ∈ cs.getLast?, isBlankChar c = false := by
    rw [List.rdropWhile_eq_self_iff, List.dropWhile_eq_self_iff]
    cases cs with
    | nil => simp
    | cons first rest => simp [List.getLast?_eq_some_getLast]
  rw [← hends]
  constructor
  · intro htrim
    have hprefix : trimChars cs <+: cs.dropWhile isBlankChar := List.rdropWhile_prefix _ _
    have hsuffix : cs.dropWhile isBlankChar <:+ cs := List.dropWhile_suffix _
    have hlength : cs.length ≤ (cs.dropWhile isBlankChar).length := by
      have hle := hprefix.length_le
      rwa [htrim] at hle
    have hleft : cs.dropWhile isBlankChar = cs :=
      hsuffix.eq_of_length (Nat.le_antisymm hsuffix.length_le hlength)
    refine ⟨hleft, ?_⟩
    rw [trimChars, hleft] at htrim
    exact htrim
  · rintro ⟨hleft, hright⟩
    rw [trimChars, hleft]
    exact hright

theorem trim_eq_self_iff {text : String} : trim text = text ↔
    (∀ c ∈ text.toList.head?, isBlankChar c = false) ∧
      ∀ c ∈ text.toList.getLast?, isBlankChar c = false := by
  rw [← trimChars_eq_self_iff, ← toList_trim, String.toList_inj]

theorem trim_trim (text : String) : trim (trim text) = trim text := by
  apply String.toList_inj.1
  rw [toList_trim, toList_trim, trimChars_eq_self_iff]
  have hlast : ∀ c ∈ (trimChars text.toList).getLast?, isBlankChar c = false := by
    intro c hc
    obtain ⟨hne, rfl⟩ := List.mem_getLast?_eq_getLast hc
    have hnot := List.rdropWhile_last_not isBlankChar (text.toList.dropWhile isBlankChar) hne
    exact eq_false_of_ne_true hnot
  refine ⟨?_, hlast⟩
  intro c hc
  have hprefix : trimChars text.toList <+: text.toList.dropWhile isBlankChar :=
    List.rdropWhile_prefix _ _
  obtain ⟨rest, hrest⟩ := hprefix
  have hhead := List.head?_dropWhile_not isBlankChar text.toList
  rw [← hrest, List.head?_append, Option.mem_def.1 hc] at hhead
  exact hhead

theorem trimChars_append_of_blank {front : List Char} (h : front.all isBlankChar = true)
    (cs : List Char) : trimChars (front ++ cs) = trimChars cs := by
  rw [trimChars, List.dropWhile_append_of_pos (List.all_eq_true.1 h), trimChars]

theorem trimChars_append_blank (cs : List Char) {back : List Char}
    (h : back.all isBlankChar = true) : trimChars (cs ++ back) = trimChars cs := by
  have hback : ∀ c ∈ back, isBlankChar c = true := List.all_eq_true.1 h
  have hreversed : ∀ c ∈ back.reverse, isBlankChar c = true := fun c hc =>
    hback c (List.mem_reverse.1 hc)
  rw [trimChars, trimChars, List.dropWhile_append]
  split
  · rename_i hempty
    rw [List.isEmpty_iff.1 hempty, List.dropWhile_eq_nil_iff.2 hback]
  · rw [List.reverse_append, List.dropWhile_append_of_pos hreversed]

/-- What is left of a text without the blank characters around it. -/
structure HasCore (text core : String) : Prop where
  framed : ∃ front back, text = front ++ core ++ back ∧ isBlank front = true ∧ isBlank back = true
  first : ∀ c ∈ core.toList.head?, isBlankChar c = false
  last : ∀ c ∈ core.toList.getLast?, isBlankChar c = false

/-- Trimming leaves the core of a text. -/
theorem hasCore_iff {text core : String} : HasCore text core ↔ trim text = core := by
  constructor
  · rintro ⟨⟨front, back, rfl, hfront, hback⟩, hfirst, hlast⟩
    apply String.toList_inj.1
    rw [toList_trim, String.toList_append, String.toList_append, trimChars_append_blank _ hback,
      trimChars_append_of_blank hfront, trimChars_eq_self_iff]
    exact ⟨hfirst, hlast⟩
  · rintro rfl
    obtain ⟨hfirst, hlast⟩ := trim_eq_self_iff.1 (trim_trim text)
    refine ⟨⟨String.ofList (text.toList.takeWhile isBlankChar),
      String.ofList ((text.toList.dropWhile isBlankChar).rtakeWhile isBlankChar), ?_, ?_, ?_⟩,
      hfirst, hlast⟩
    · apply String.toList_inj.1
      rw [String.toList_append, String.toList_append, String.toList_ofList, String.toList_ofList,
        toList_trim, List.append_assoc]
      have hcut : trimChars text.toList ++ (text.toList.dropWhile isBlankChar).rtakeWhile isBlankChar
          = text.toList.dropWhile isBlankChar := List.rdropWhile_append_rtakeWhile
      rw [hcut, List.takeWhile_append_dropWhile]
    · rw [isBlank, String.toList_ofList, List.all_eq_true]
      exact fun c hc => List.mem_takeWhile_imp hc
    · rw [isBlank, String.toList_ofList, List.all_eq_true]
      exact fun c hc => List.mem_rtakeWhile_imp hc

/-! ### Letters and digits -/

theorem asciiLowerChar_eq_toLower (c : Char) : asciiLowerChar c = c.toLower := by
  rw [asciiLowerChar]
  by_cases hupper : c.val ≥ 'A'.val ∧ c.val ≤ 'Z'.val
  · have hbelow : c.toNat ≤ 90 := hupper.2
    have hvalid : (c.toNat + 32).isValidChar := .inl (by omega)
    have hlower : c.toLower.toNat = (c.val + ('a'.val - 'A'.val)).toNat :=
      congrArg Char.toNat (dif_pos hupper)
    rw [if_pos (show 'A' ≤ c ∧ c ≤ 'Z' from hupper), Char.ofNat, dif_pos hvalid]
    apply Char.toNat_inj.1
    rw [hlower, UInt32.toNat_add]
    show c.toNat + 32 = (c.toNat + 32) % 4294967296
    omega
  · have hkept : c.toLower = c := dif_neg hupper
    rw [if_neg (show ¬ ('A' ≤ c ∧ c ≤ 'Z') from hupper), hkept]

/-- Folding the case is that of core. -/
theorem asciiLower_eq_toLower (text : String) : asciiLower text = text.toLower := by
  apply String.toList_inj.1
  rw [asciiLower, String.toList_ofList, show text.toLower = text.map Char.toLower from rfl,
    String.toList_map]
  exact List.map_congr_left fun c _ => asciiLowerChar_eq_toLower c

theorem valueOf_eq_ofDigitChars (digits : List Char) :
    valueOf digits = Nat.ofDigitChars 10 digits 0 := by
  have hsame : (fun (value : Nat) (d : Char) => value * 10 + (d.toNat - 48))
      = fun value d => 10 * value + (d.toNat - '0'.toNat) := by
    funext value d
    rw [Nat.mul_comm]
    rfl
  rw [valueOf, Nat.ofDigitChars, hsame]

/-- Digits, of which there has to be one, read as the number that they write, if it has at most
sixty-four bits. -/
theorem number?_eq_some_iff {digits : List Char} {number : Nat} :
    number? digits = some number ↔
      digits ≠ [] ∧ (∀ d ∈ digits, d.isDigit = true) ∧
        number = Nat.ofDigitChars 10 digits 0 ∧ number < UInt64.size := by
  have hnone : (digits.isEmpty || !digits.all isDigit) = true ↔
      ¬ (digits ≠ [] ∧ ∀ d ∈ digits, d.isDigit = true) := by
    rw [Bool.or_eq_true, List.isEmpty_iff, Bool.not_eq_true', Bool.eq_false_iff, ne_eq,
      List.all_eq_true, not_and_or, not_ne_iff]
    rfl
  rw [number?, valueOf_eq_ofDigitChars]
  by_cases h : digits ≠ [] ∧ ∀ d ∈ digits, d.isDigit = true
  · rw [if_neg fun hempty => hnone.1 hempty h]
    have hlimit : Nat.ofDigitChars 10 digits 0 ≤ largestNumber ↔
        Nat.ofDigitChars 10 digits 0 < UInt64.size := Nat.lt_succ_iff.symm
    constructor
    · intro hsome
      split at hsome
      · rename_i hfits
        cases hsome
        exact ⟨h.1, h.2, rfl, hlimit.1 hfits⟩
      · cases hsome
    · rintro ⟨-, -, rfl, hbound⟩
      rw [if_pos (hlimit.2 hbound)]
  · rw [if_pos (hnone.2 h)]
    constructor
    · exact fun hsome => nomatch hsome
    · exact fun hsome => absurd ⟨hsome.1, hsome.2.1⟩ h

end BuildAlignment.Text
