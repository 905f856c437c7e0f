import BuildAlignment.Proofs.Text.Spelling
import BuildAlignment.Version.Suffix
import Mathlib.Data.List.Induction
import Mathlib.Tactic.Ring

/-!
# Counters as numbers

A counter is a text of digits, however long it is. Comparing and counting up are about the number
that it writes.

* `Version.Digits` holds of texts of digits.
* `Version.compareCounters_eq`: counters compare as their numbers do.
* `Version.valueOf_increment`: the next counter writes the next number, by
  `Version.increment_eq_toDigits` without leading zeros. `Version.counters_faithful` is both, said of
  the numbers that core reads and writes.
* `Version.valueOf_highestCounter?`: no counter of a list is above the highest one.
-/

namespace BuildAlignment.Version

open Text (isDigit valueOf valueOf_concat valueOf_eq_ofDigitChars)

def Digits (digits : List Char) : Prop := ∀ d ∈ digits, isDigit d = true

namespace Digits

variable {d : Char} {digits : List Char}

theorem nil : Digits [] := fun _ h => nomatch h

theorem cons (hd : isDigit d = true) (h : Digits digits) : Digits (d :: digits) :=
  List.forall_mem_cons.2 ⟨hd, h⟩

theorem head (h : Digits (d :: digits)) : isDigit d = true := h d List.mem_cons_self

theorem tail (h : Digits (d :: digits)) : Digits digits :=
  fun other hother => h other (List.mem_cons_of_mem _ hother)

theorem reverse (h : Digits digits) : Digits digits.reverse :=
  fun other hother => h other (List.mem_reverse.1 hother)

theorem significant (h : Digits digits) : Digits (significant digits) :=
  fun other hother => h other ((List.dropWhile_sublist _).mem hother)

theorem padLeft (width : Nat) (h : Digits digits) : Digits (padLeft width digits) := by
  intro other hother
  rcases List.mem_append.1 hother with hzero | hmem
  · rw [List.eq_of_mem_replicate hzero]
    decide
  · exact h other hmem

end Digits

theorem isDigit_iff {c : Char} : isDigit c = true ↔ 48 ≤ c.toNat ∧ c.toNat ≤ 57 := by
  rw [isDigit, Bool.and_eq_true, decide_eq_true_iff, decide_eq_true_iff]
  exact Iff.rfl

/-! ### The number of a counter -/

/-- The first digit counts as often as there are numbers of the digits behind it. -/
theorem valueOf_cons (d : Char) (digits : List Char) :
    valueOf (d :: digits) = (d.toNat - 48) * 10 ^ digits.length + valueOf digits := by
  induction digits using List.reverseRecOn with
  | nil => simp [valueOf]
  | append_singleton digits last ih =>
    rw [← List.cons_append, valueOf_concat, valueOf_concat, ih, List.length_append,
      List.length_singleton]
    ring

theorem valueOf_lt {digits : List Char} (h : Digits digits) :
    valueOf digits < 10 ^ digits.length := by
  induction digits with
  | nil => simp [valueOf]
  | cons d rest ih =>
    have hd := isDigit_iff.1 h.head
    have hrest := ih h.tail
    have hdigit : (d.toNat - 48) * 10 ^ rest.length ≤ 9 * 10 ^ rest.length :=
      Nat.mul_le_mul_right _ (by omega)
    rw [valueOf_cons, List.length_cons, Nat.pow_succ]
    omega

theorem valueOf_significant (digits : List Char) :
    valueOf (significant digits) = valueOf digits := by
  induction digits with
  | nil => rfl
  | cons d rest ih =>
    by_cases hzero : d = '0'
    · rw [significant, List.dropWhile_cons_of_pos (by simp [hzero]), valueOf_cons, hzero]
      simpa [significant] using ih
    · rw [significant, List.dropWhile_cons_of_neg (by simp [hzero])]

theorem valueOf_padLeft (width : Nat) (digits : List Char) :
    valueOf (padLeft width digits) = valueOf digits := by
  rw [← valueOf_significant, significant_padLeft, valueOf_significant]

/-- Without leading zeros, a number is at least as large as its first digit's place. -/
theorem le_valueOf_significant {digits : List Char} (h : Digits digits) {d : Char}
    {rest : List Char} (hcons : significant digits = d :: rest) :
    10 ^ rest.length ≤ valueOf (significant digits) := by
  have hd := isDigit_iff.1 (hcons ▸ h.significant).head
  have hne : d ≠ '0' := by
    have hhead := List.head?_dropWhile_not (· == '0') digits
    rw [← significant, hcons] at hhead
    simpa using hhead
  have hpositive : 1 ≤ d.toNat - 48 := by
    have hchar : d.toNat ≠ 48 := fun heq => hne (Char.toNat_inj.1 heq)
    omega
  rw [hcons, valueOf_cons]
  calc 10 ^ rest.length = 1 * 10 ^ rest.length := (Nat.one_mul _).symm
    _ ≤ (d.toNat - 48) * 10 ^ rest.length := Nat.mul_le_mul_right _ hpositive
    _ ≤ _ := Nat.le_add_right _ _

/-! ### Comparing -/

theorem compare_char (a b : Char) : compare a b = compare a.toNat b.toNat := by
  simp only [compare, compareOfLessAndEq, ← Char.toNat_inj, Char.lt_def, UInt32.lt_iff_toNat_lt]
  rfl

/-- Of two texts of digits of one length the first difference decides. -/
theorem compareDigits_eq {first second : List Char} (hfirst : Digits first)
    (hsecond : Digits second) (hlength : first.length = second.length) :
    compareDigits first second = compare (valueOf first) (valueOf second) := by
  induction first generalizing second with
  | nil =>
    rw [List.length_eq_zero_iff.1 hlength.symm]
    rfl
  | cons a as ih =>
    obtain ⟨b, bs, rfl⟩ := List.exists_cons_of_length_pos
      (show 0 < second.length by rw [← hlength]; exact Nat.succ_pos _)
    replace hlength : as.length = bs.length := Nat.succ.inj hlength
    have ha := isDigit_iff.1 hfirst.head
    have hb := isDigit_iff.1 hsecond.head
    have has := valueOf_lt hfirst.tail
    have hbs := valueOf_lt hsecond.tail
    rw [compareDigits, ih hfirst.tail hsecond.tail hlength, compare_char, valueOf_cons,
      valueOf_cons, hlength]
    rw [hlength] at has
    generalize 10 ^ bs.length = place at has hbs
    -- What is behind the first digits is less than a difference between these.
    have hstep : ∀ x y : Nat, x < y → x * place + place ≤ y * place := by
      intro x y hlt
      calc x * place + place = (x + 1) * place := by ring
        _ ≤ y * place := Nat.mul_le_mul_right _ hlt
    rcases Nat.lt_trichotomy a.toNat b.toNat with hlt | heq | hgt
    · have hbelow := hstep (a.toNat - 48) (b.toNat - 48) (by omega)
      have hvalues :
          (a.toNat - 48) * place + valueOf as < (b.toNat - 48) * place + valueOf bs := by omega
      rw [Nat.compare_eq_lt.2 hlt, Nat.compare_eq_lt.2 hvalues]
      rfl
    · rw [heq, Nat.compare_eq_eq.2 rfl]
      show compare _ _ = compare _ _
      simp only [compare, compareOfLessAndEq, Nat.add_lt_add_iff_left, Nat.add_left_cancel_iff]
    · have habove := hstep (b.toNat - 48) (a.toNat - 48) (by omega)
      have hvalues :
          (b.toNat - 48) * place + valueOf bs < (a.toNat - 48) * place + valueOf as := by omega
      rw [Nat.compare_eq_gt.2 hgt, Nat.compare_eq_gt.2 hvalues]
      rfl

/-- Counters compare as their numbers do. -/
theorem compareCounters_eq {first second : List Char} (hfirst : Digits first)
    (hsecond : Digits second) :
    compareCounters first second = compare (valueOf first) (valueOf second) := by
  -- A longer text without leading zeros writes a larger number.
  have hlonger : ∀ {shorter longer : List Char}, Digits shorter → Digits longer →
      (significant shorter).length < (significant longer).length →
        valueOf (significant shorter) < valueOf (significant longer) := by
    intro shorter longer hshorter hlonger hlength
    obtain ⟨d, rest, hcons⟩ := List.exists_cons_of_length_pos (Nat.zero_lt_of_lt hlength)
    calc valueOf (significant shorter) < 10 ^ (significant shorter).length :=
          valueOf_lt hshorter.significant
      _ ≤ 10 ^ rest.length := by
          rw [hcons, List.length_cons] at hlength
          exact Nat.pow_le_pow_right (by omega) (by omega)
      _ ≤ valueOf (significant longer) := le_valueOf_significant hlonger hcons
  rw [compareCounters, ← valueOf_significant first, ← valueOf_significant second]
  rcases Nat.lt_trichotomy (significant first).length (significant second).length with
    hlt | heq | hgt
  · rw [Nat.compare_eq_lt.2 hlt, Nat.compare_eq_lt.2 (hlonger hfirst hsecond hlt)]
    rfl
  · rw [Nat.compare_eq_eq.2 heq]
    exact compareDigits_eq hfirst.significant hsecond.significant heq
  · rw [Nat.compare_eq_gt.2 hgt, Nat.compare_eq_gt.2 (hlonger hsecond hfirst hgt)]
    rfl

/-! ### Counting up -/

theorem toNat_ofNat_succ {d : Char} (h : isDigit d = true) (hne : d ≠ '9') :
    (Char.ofNat (d.toNat + 1)).toNat = d.toNat + 1 ∧
      isDigit (Char.ofNat (d.toNat + 1)) = true := by
  have hd := isDigit_iff.1 h
  have hchar : d.toNat ≠ 57 := fun heq => hne (Char.toNat_inj.1 heq)
  have hvalid : (d.toNat + 1).isValidChar := .inl (by omega)
  have hnext : (Char.ofNat (d.toNat + 1)).toNat = d.toNat + 1 := by
    rw [Char.ofNat, dif_pos hvalid]
    rfl
  refine ⟨hnext, isDigit_iff.2 ?_⟩
  rw [hnext]
  omega

theorem Digits.succDigits {digits : List Char} (h : Digits digits) :
    Digits (succDigits digits) := by
  induction digits with
  | nil => exact .cons (by decide) .nil
  | cons d rest ih =>
    rw [Version.succDigits]
    split
    · exact .cons (by decide) (ih h.tail)
    · rename_i hne
      exact .cons (toNat_ofNat_succ h.head hne).2 h.tail

theorem valueOf_succDigits {digits : List Char} (h : Digits digits) :
    valueOf (succDigits digits).reverse = valueOf digits.reverse + 1 := by
  induction digits with
  | nil => rfl
  | cons d rest ih =>
    rw [succDigits, List.reverse_cons, valueOf_concat]
    split
    · rename_i hnine
      rw [List.reverse_cons, valueOf_concat, ih h.tail, hnine]
      show (valueOf rest.reverse + 1) * 10 + 0 = valueOf rest.reverse * 10 + 9 + 1
      omega
    · rename_i hne
      have hd := isDigit_iff.1 h.head
      rw [List.reverse_cons, valueOf_concat, (toNat_ofNat_succ h.head hne).1]
      omega

theorem Digits.increment {digits : List Char} (h : Digits digits) : Digits (increment digits) :=
  h.significant.reverse.succDigits.reverse

theorem valueOf_increment {digits : List Char} (h : Digits digits) :
    valueOf (increment digits) = valueOf digits + 1 := by
  rw [increment, valueOf_succDigits h.significant.reverse, List.reverse_reverse,
    valueOf_significant]

theorem succDigits_ne_nil (digits : List Char) : succDigits digits ≠ [] := by
  cases digits with
  | nil => exact List.cons_ne_nil _ _
  | cons d rest =>
    rw [succDigits]
    split
    · exact List.cons_ne_nil _ _
    · exact List.cons_ne_nil _ _

theorem increment_ne_nil (digits : List Char) : increment digits ≠ [] := by
  rw [increment, ne_eq, List.reverse_eq_nil_iff]
  exact succDigits_ne_nil _

/-! ### The decimal form -/

theorem digitChar_value {d : Char} (h : isDigit d = true) : Nat.digitChar (d.toNat - 48) = d := by
  have hd := isDigit_iff.1 h
  apply Char.toNat_inj.1
  rw [Nat.toNat_digitChar_of_lt_ten (by omega)]
  omega

theorem digits_toDigits (number : Nat) : Digits (Nat.toDigits 10 number) := by
  intro d hd
  have hcore := Nat.isDigit_of_mem_toDigits (by decide) (by decide) hd
  rw [Char.isDigit_iff_toNat] at hcore
  exact isDigit_iff.2 hcore

theorem valueOf_toDigits (number : Nat) : valueOf (Nat.toDigits 10 number) = number := by
  rw [valueOf_eq_ofDigitChars]
  exact Nat.ofDigitChars_toDigits (by decide) (by decide)

/-- Digits that do not begin with a zero are the decimal form of their number. -/
theorem eq_toDigits {digits : List Char} (h : Digits digits) (hne : digits ≠ [])
    (hzero : digits.head? ≠ some '0') : digits = Nat.toDigits 10 (valueOf digits) := by
  induction digits using List.reverseRecOn with
  | nil => exact absurd rfl hne
  | append_singleton front d ih =>
    obtain ⟨hfront, hd⟩ := List.forall_mem_append.1 h
    replace hd := hd d (List.mem_singleton_self d)
    have hbelow : d.toNat - 48 < 10 := by
      have hrange := isDigit_iff.1 hd
      omega
    rw [valueOf_concat]
    cases front with
    | nil =>
      show [d] = Nat.toDigits 10 (0 * 10 + (d.toNat - 48))
      rw [Nat.zero_mul, Nat.zero_add, Nat.toDigits_of_lt_base hbelow, digitChar_value hd]
    | cons first rest =>
      have hfirst : first ≠ '0' := by simpa using hzero
      have hpositive : 0 < valueOf (first :: rest) := by
        have hsame : significant (first :: rest) = first :: rest :=
          List.dropWhile_cons_of_neg (by simpa using hfirst)
        rw [← hsame]
        exact Nat.lt_of_lt_of_le (Nat.pow_pos (by decide)) (le_valueOf_significant hfront hsame)
      rw [Nat.mul_comm, ← Nat.toDigits_append_toDigits (by decide) hpositive hbelow,
        Nat.toDigits_of_lt_base hbelow, digitChar_value hd,
        ← ih hfront (List.cons_ne_nil _ _) (by simpa using hfirst)]

theorem getLast?_succDigits {digits : List Char} (h : Digits digits)
    (hlast : digits.getLast? ≠ some '0') : (succDigits digits).getLast? ≠ some '0' := by
  induction digits with
  | nil => decide
  | cons d rest ih =>
    have hrest : rest.getLast? ≠ some '0' := by
      cases rest with
      | nil => simp
      | cons next others => rwa [List.getLast?_cons_cons] at hlast
    rw [succDigits]
    split
    · obtain ⟨next, others, hcons⟩ := List.exists_cons_of_ne_nil (succDigits_ne_nil rest)
      rw [hcons, List.getLast?_cons_cons, ← hcons]
      exact ih h.tail hrest
    · rename_i hnine
      cases rest with
      | nil =>
        have hnext := (toNat_ofNat_succ h.head hnine).1
        have hd := isDigit_iff.1 h.head
        intro hzero
        rw [List.getLast?_singleton, Option.some.injEq] at hzero
        rw [hzero] at hnext
        have hchar : '0'.toNat = 48 := rfl
        omega
      | cons next others =>
        rw [List.getLast?_cons_cons]
        exact hrest

/-- The next counter has no leading zeros. -/
theorem head?_increment {digits : List Char} (h : Digits digits) :
    (increment digits).head? ≠ some '0' := by
  rw [increment, List.head?_reverse]
  refine getLast?_succDigits h.significant.reverse ?_
  have hhead := List.head?_dropWhile_not (· == '0') digits
  rw [List.getLast?_reverse, significant]
  intro hzero
  rw [hzero] at hhead
  exact absurd hhead (by decide)

/-- The next counter is the decimal form of the next number, without leading zeros. -/
theorem increment_eq_toDigits {digits : List Char} (h : Digits digits) :
    increment digits = Nat.toDigits 10 (valueOf digits + 1) := by
  rw [← valueOf_increment h]
  exact eq_toDigits h.increment (increment_ne_nil digits) (head?_increment h)

/-- However long two counters are and with whatever zeros they begin, they compare as the numbers
that they write, and the next one is the decimal form of the next number, without leading zeros. -/
theorem counters_faithful {first second : List Char} (hfirst : Digits first)
    (hsecond : Digits second) :
    compareCounters first second
        = compare (Nat.ofDigitChars 10 first 0) (Nat.ofDigitChars 10 second 0) ∧
      String.ofList (increment first) = toString (Nat.ofDigitChars 10 first 0 + 1) ∧
      (increment first).head? ≠ some '0' := by
  refine ⟨?_, ?_, head?_increment hfirst⟩
  · rw [compareCounters_eq hfirst hsecond, valueOf_eq_ofDigitChars, valueOf_eq_ofDigitChars]
  · rw [increment_eq_toDigits hfirst, valueOf_eq_ofDigitChars, Nat.toString_eq_ofList_toDigits]

/-- Nines behind zeros, and a number of more than sixty-four bits. -/
theorem counters_faithful_of_nines :
    let nines := "0099999999999999999999".toList
    let long := "18446744073709551616".toList
    Digits nines ∧ Digits long ∧ compareCounters nines long = .gt ∧
      String.ofList (increment nines) = "100000000000000000000" ∧
      String.ofList (increment long) = "18446744073709551617" := by
  intro nines long
  have hnines : Digits nines := by
    rw [Digits, ← List.all_eq_true]
    decide
  have hlong : Digits long := by
    rw [Digits, ← List.all_eq_true]
    decide
  obtain ⟨hcompare, hnext, -⟩ := counters_faithful hnines hlong
  obtain ⟨-, hnext', -⟩ := counters_faithful hlong hnines
  refine ⟨hnines, hlong, ?_, ?_, ?_⟩
  · rw [hcompare]
    decide
  · rw [hnext]
    decide
  · rw [hnext']
    decide

/-! ### The highest counter -/

theorem Digits.laterCounter {first second : List Char} (hfirst : Digits first)
    (hsecond : Digits second) : Digits (laterCounter first second) := by
  rw [Version.laterCounter]
  split
  · exact hfirst
  · exact hsecond

theorem valueOf_laterCounter {first second : List Char} (hfirst : Digits first)
    (hsecond : Digits second) :
    valueOf (laterCounter first second) = max (valueOf first) (valueOf second) := by
  rw [laterCounter, compareCounters_eq hfirst hsecond]
  split
  · rename_i hgt
    rw [Nat.compare_eq_gt] at hgt
    exact (Nat.max_eq_left (Nat.le_of_lt hgt)).symm
  · rename_i hle
    rw [Nat.compare_eq_gt] at hle
    exact (Nat.max_eq_right (Nat.le_of_not_lt hle)).symm

/-- The highest counter of a list writes the largest number. -/
theorem valueOf_highestCounter? {counter : List Char} {counters : List (List Char)}
    (hcounter : Digits counter) (h : ∀ other ∈ counters, Digits other) :
    ∃ highest, highestCounter? (counter :: counters) = some highest ∧ Digits highest ∧
      valueOf highest = (counters.map valueOf).foldl max (valueOf counter) := by
  rw [highestCounter?]
  induction counters generalizing counter with
  | nil => exact ⟨counter, rfl, hcounter, rfl⟩
  | cons other rest ih =>
    have hother := h other List.mem_cons_self
    obtain ⟨highest, heq, hdigits, hvalue⟩ := ih (hcounter.laterCounter hother)
      fun further hfurther => h further (List.mem_cons_of_mem _ hfurther)
    refine ⟨highest, heq, hdigits, ?_⟩
    rw [hvalue, valueOf_laterCounter hcounter hother, List.map_cons, List.foldl_cons]

example : compareCounters "0099999999999999999999".toList "100".toList = .gt := by decide

end BuildAlignment.Version
