import BuildAlignment.Proofs.Version.Counter
import Mathlib.Data.List.DropRight
import Mathlib.Order.Bounds.Basic

/-!
# Versions that count on

A version that was given out is a candidate when the next one is computed. It is then taken apart
again into the base, the suffix and the counter that it was put together from.

* `Version.splitSuffixed?_eq_some_iff`: what a version is taken apart into.
* `Version.Counted` holds of versions of a base with a suffix and a number, and `Version.numbered`
  writes the one with a counter of a least width.
* `Version.StandsOn` and `Version.HighestOn`: the base that a version counts on, and the highest
  number that some versions have on a base.
* `Version.nextVersion_eq_numbered`: the next version has the number behind the highest one.
-/

namespace BuildAlignment.Version

open Text (isDigit valueOf)

/-! ### Taking versions apart -/

variable {suffix version base counter : List Char}

/-- A scan stops at the first character outside its class. -/
theorem takeWhile_append_cons {p : Char → Bool} {front : List Char} (hfront : ∀ d ∈ front, p d = true)
    {c : Char} (hc : p c = false) (rest : List Char) : (front ++ c :: rest).takeWhile p = front := by
  rw [List.takeWhile_append_of_pos hfront, List.takeWhile_cons_of_neg (by simp [hc]),
    List.append_nil]

theorem dropWhile_append_cons {p : Char → Bool} {front : List Char} (hfront : ∀ d ∈ front, p d = true)
    {c : Char} (hc : p c = false) (rest : List Char) :
    (front ++ c :: rest).dropWhile p = c :: rest := by
  rw [List.dropWhile_append_of_pos hfront, List.dropWhile_cons_of_neg (by simp [hc])]

/-- Where the last parts of two equal texts are those that a scan from the end takes, they are
equal, and what is before them is equal too. -/
theorem append_cons_inj {p : Char → Bool} {c : Char} {before before' last last' : List Char}
    (hlast : ∀ d ∈ last, p d = true) (hlast' : ∀ d ∈ last', p d = true) (hc : p c = false)
    (h : before ++ c :: last = before' ++ c :: last') : before = before' ∧ last = last' := by
  have hreversed : last.reverse ++ c :: before.reverse = last'.reverse ++ c :: before'.reverse := by
    simpa using congrArg List.reverse h
  have htaken := congrArg (List.takeWhile p) hreversed
  have hdropped := congrArg (List.dropWhile p) hreversed
  have hfront : ∀ d ∈ last.reverse, p d = true := fun d hd => hlast d (List.mem_reverse.1 hd)
  have hfront' : ∀ d ∈ last'.reverse, p d = true := fun d hd => hlast' d (List.mem_reverse.1 hd)
  rw [takeWhile_append_cons hfront hc, takeWhile_append_cons hfront' hc] at htaken
  rw [dropWhile_append_cons hfront hc, dropWhile_append_cons hfront' hc] at hdropped
  exact ⟨List.reverse_inj.1 (List.cons.inj hdropped).2, List.reverse_inj.1 htaken⟩

/-- A version is taken apart into a base on one line, the suffix and a counter. -/
theorem splitSuffixed?_eq_some_iff : splitSuffixed? suffix version = some (base, counter) ↔
    version = base ++ '-' :: (suffix ++ '-' :: counter) ∧ suffix ≠ [] ∧ '\n' ∉ base ∧
      Digits counter ∧ counter ≠ [] := by
  constructor
  · intro h
    rw [splitSuffixed?] at h
    have hparts := List.takeWhile_append_dropWhile (p := isDigit) (l := version.reverse)
    have hdigits : Digits (version.reverse.takeWhile isDigit) := fun d hd =>
      (List.mem_takeWhile_imp hd)
    revert h hparts hdigits
    generalize version.reverse.takeWhile isDigit = digits, version.reverse.dropWhile isDigit = rest
    intro h hparts hdigits
    split at h
    · cases h
    · rename_i hempty
      rw [Bool.or_eq_true, not_or, List.isEmpty_iff, List.isEmpty_iff] at hempty
      cases hmark : ('-' :: (suffix.reverse ++ ['-'])).isPrefixOf? rest with
      | none => rw [hmark] at h; cases h
      | some before =>
        rw [hmark] at h
        dsimp only at h
        split at h
        · cases h
        · rename_i hline
          cases h
          have hrest := List.isPrefixOf?_eq_some_iff_append_eq.1 hmark
          refine ⟨?_, hempty.1, ?_, hdigits.reverse, ?_⟩
          · rw [← List.reverse_inj, ← hparts, ← hrest]
            simp
          · simpa using hline
          · simpa using hempty.2
  · rintro ⟨rfl, hsuffix, hline, hdigits, hcounter⟩
    have hreversed : (base ++ '-' :: (suffix ++ '-' :: counter)).reverse
        = counter.reverse ++ '-' :: (suffix.reverse ++ '-' :: base.reverse) := by simp
    have hmark : ('-' :: (suffix.reverse ++ ['-'])).isPrefixOf?
        ('-' :: (suffix.reverse ++ '-' :: base.reverse)) = some base.reverse := by
      rw [List.isPrefixOf?_eq_some_iff_append_eq]
      simp
    rw [splitSuffixed?, hreversed, takeWhile_append_cons hdigits.reverse rfl,
      dropWhile_append_cons hdigits.reverse rfl, hmark]
    simp [hsuffix, hcounter, hline]

/-! ### Versions with a number -/

/-- A version of a base with a suffix, a number in digits, and a mark behind it. -/
def Counted (suffix base mark : String) (number : Nat) (version : String) : Prop :=
  ∃ digits : List Char, Digits digits ∧ digits ≠ [] ∧ valueOf digits = number ∧
    version = base ++ "-" ++ suffix ++ "-" ++ String.ofList digits ++ mark

/-- On one base, with one mark, a version has one number. -/
theorem Counted.number_eq {suffix base mark version : String} {number other : Nat}
    (h : Counted suffix base mark number version)
    (h' : Counted suffix base mark other version) : number = other := by
  obtain ⟨digits, -, -, rfl, hversion⟩ := h
  obtain ⟨others, -, -, rfl, hother⟩ := h'
  rw [hversion, String.append_left_inj, String.append_right_inj, String.ofList_inj] at hother
  rw [hother]

/-- A mark can be put behind a version that has none. -/
theorem Counted.append {suffix base version : String} {number : Nat}
    (h : Counted suffix base "" number version) (mark : String) :
    Counted suffix base mark number (version ++ mark) := by
  obtain ⟨digits, hdigits, hne, hvalue, rfl⟩ := h
  refine ⟨digits, hdigits, hne, hvalue, ?_⟩
  rw [String.append_empty]

/-- A number in decimal digits, filled up with zeros to a least width. -/
def decimal (padding number : Nat) : String :=
  String.ofList (padLeft padding (Nat.toDigits 10 number))

def numbered (base suffix : String) (padding number : Nat) : String :=
  base ++ "-" ++ suffix ++ "-" ++ decimal padding number

/-- A text of digits with the value of a number is at least one digit long. -/
theorem padLeft_toDigits_ne_nil (padding number : Nat) :
    padLeft padding (Nat.toDigits 10 number) ≠ [] := by
  rw [padLeft, ne_eq, List.append_eq_nil_iff, not_and]
  exact fun _ => Nat.toDigits_ne_nil

theorem counted_numbered (base suffix : String) (padding number : Nat) :
    Counted suffix base "" number (numbered base suffix padding number) := by
  refine ⟨_, (digits_toDigits number).padLeft padding, padLeft_toDigits_ne_nil padding number, ?_, ?_⟩
  · rw [valueOf_padLeft, valueOf_toDigits]
  · rw [String.append_empty]
    rfl

theorem numbered_eq (base suffix : String) (padding number : Nat) :
    numbered base suffix padding number
      = String.ofList (formatVersion base.toList suffix.toList padding (Nat.toDigits 10 number)) := by
  apply String.toList_inj.1
  simp [numbered, decimal, formatVersion]

section Versions

variable {suffix version base : String} {number : Nat}

theorem Counted.toList_eq (h : Counted suffix base "" number version) : ∃ counter,
    version.toList = base.toList ++ '-' :: (suffix.toList ++ '-' :: counter) ∧ Digits counter ∧
      counter ≠ [] ∧ valueOf counter = number := by
  obtain ⟨counter, hdigits, hcounter, hvalue, rfl⟩ := h
  refine ⟨counter, ?_, hdigits, hcounter, hvalue⟩
  simp

/-- What stands before the number of a version is the same however the version is read. -/
theorem Counted.front_eq (h : Counted suffix base "" number version) {other front : String}
    {second : Nat} (h' : Counted other front "" second version) :
    base.toList ++ '-' :: suffix.toList = front.toList ++ '-' :: other.toList := by
  obtain ⟨counter, hversion, hdigits, -⟩ := h.toList_eq
  obtain ⟨counter', hversion', hdigits', -⟩ := h'.toList_eq
  rw [hversion, ← List.cons_append, ← List.cons_append, ← List.append_assoc,
    ← List.append_assoc] at hversion'
  exact (append_cons_inj hdigits hdigits' rfl hversion').1

/-- A version with a number is taken apart where its base stands on one line. -/
theorem Counted.splitSuffixed? (h : Counted suffix base "" number version) (hsuffix : suffix ≠ "")
    (hline : '\n' ∉ base.toList) : ∃ counter,
      splitSuffixed? suffix.toList version.toList = some (base.toList, counter) ∧
        valueOf counter = number := by
  obtain ⟨counter, hversion, hdigits, hcounter, hvalue⟩ := h.toList_eq
  have hne : suffix.toList ≠ [] := fun hnil => hsuffix (String.toList_eq_nil_iff.1 hnil)
  exact ⟨counter, splitSuffixed?_eq_some_iff.2 ⟨hversion, hne, hline, hdigits, hcounter⟩, hvalue⟩

theorem counted_of_splitSuffixed? {front counter : List Char}
    (h : splitSuffixed? suffix.toList version.toList = some (front, counter)) :
    Counted suffix (String.ofList front) "" (valueOf counter) version := by
  obtain ⟨hversion, -, -, hdigits, hcounter⟩ := splitSuffixed?_eq_some_iff.1 h
  refine ⟨counter, hdigits, hcounter, rfl, ?_⟩
  apply String.toList_inj.1
  simp [hversion]

/-- The version has no number behind this suffix. -/
def Fresh (suffix version : String) : Prop := ∀ base number, ¬ Counted suffix base "" number version

/-- What is not taken apart has no number, where it stands on one line. -/
theorem fresh_of_splitSuffixed? (hsuffix : suffix ≠ "") (hline : '\n' ∉ version.toList)
    (h : splitSuffixed? suffix.toList version.toList = none) : Fresh suffix version := by
  intro base number hcounted
  obtain ⟨counter, hversion, -⟩ := hcounted.toList_eq
  have hbase : '\n' ∉ base.toList := fun hmem => hline (hversion ▸ List.mem_append_left _ hmem)
  obtain ⟨counter, hsplit, -⟩ := hcounted.splitSuffixed? hsuffix hbase
  rw [h] at hsplit
  cases hsplit

/-- The base that a version counts on: what stands before the suffix and the digits at its end, and
the whole version where these are missing. -/
def StandsOn (suffix version base : String) : Prop :=
  (∃ number, Counted suffix base "" number version) ∨ Fresh suffix version ∧ base = version

theorem exists_standsOn (suffix version : String) : ∃ base, StandsOn suffix version base := by
  by_cases h : ∃ base number, Counted suffix base "" number version
  · exact h.imp fun base hbase => .inl hbase
  · exact ⟨version, .inr ⟨fun base number hcounted => h ⟨base, number, hcounted⟩, rfl⟩⟩

/-- A base is a first part of the version. -/
theorem StandsOn.mem (h : StandsOn suffix version base) {c : Char} (hc : c ∈ base.toList) :
    c ∈ version.toList := by
  rcases h with ⟨number, hcounted⟩ | ⟨-, rfl⟩
  · obtain ⟨counter, hversion, -⟩ := hcounted.toList_eq
    rw [hversion]
    exact List.mem_append_left _ hc
  · exact hc

/-- The highest number that some versions have on a base, and zero where none has one. -/
def HighestOn (suffix base : String) (versions : List String) (highest : Nat) : Prop :=
  IsGreatest (insert 0 {number | ∃ version ∈ versions, Counted suffix base "" number version}) highest

end Versions

/-! ### The next version -/

/-- The counter behind all of some counters. -/
def counterAfter (counters : List (List Char)) : List Char :=
  match highestCounter? counters with
  | some highest => increment highest
  | none => ['1']

/-- The next version stands on the base of the current one, whose own counter is one of those that
stand on it. -/
theorem nextChars_of_some (candidates : List (List Char)) (padding : Nat)
    (h : splitSuffixed? suffix version = some (base, counter)) :
    nextChars version candidates suffix padding = formatVersion base suffix padding
      (counterAfter (countersOn base suffix (version :: candidates))) := by
  have hown : countersOn base suffix (version :: candidates)
      = counter :: countersOn base suffix candidates := by
    simp [countersOn, h]
  rw [nextChars, h, hown]
  rfl

theorem nextChars_of_none (candidates : List (List Char)) (padding : Nat)
    (h : splitSuffixed? suffix version = none) :
    nextChars version candidates suffix padding = formatVersion version suffix padding
      (counterAfter (countersOn version suffix (version :: candidates))) := by
  have hown : countersOn version suffix (version :: candidates)
      = countersOn version suffix candidates := by
    simp [countersOn, h]
  rw [nextChars, h, hown]
  rfl

theorem mem_countersOn {candidates : List (List Char)} :
    counter ∈ countersOn base suffix candidates ↔
      ∃ candidate ∈ candidates, splitSuffixed? suffix candidate = some (base, counter) := by
  rw [countersOn, List.mem_filterMap]
  refine exists_congr fun candidate => and_congr_right fun _ => ?_
  cases splitSuffixed? suffix candidate with
  | none => simp
  | some parts =>
    obtain ⟨own, digits⟩ := parts
    dsimp only
    split
    · rename_i hown
      simp [hown]
    · rename_i hown
      simp [hown]

theorem digits_of_mem_countersOn {candidates : List (List Char)}
    (h : counter ∈ countersOn base suffix candidates) : Digits counter := by
  obtain ⟨candidate, -, hsplit⟩ := mem_countersOn.1 h
  exact (splitSuffixed?_eq_some_iff.1 hsplit).2.2.2.1

/-- The counter behind some counters is the decimal form of the number behind all of theirs. -/
theorem counterAfter_eq {counters : List (List Char)} (h : ∀ other ∈ counters, Digits other) :
    counterAfter counters = Nat.toDigits 10 ((counters.map valueOf).foldl max 0 + 1) := by
  rw [counterAfter]
  cases counters with
  | nil => decide
  | cons first rest =>
    obtain ⟨highest, hhighest, hdigits, hvalue⟩ := valueOf_highestCounter?
      (h first List.mem_cons_self) fun other hother => h other (List.mem_cons_of_mem _ hother)
    rw [hhighest, List.map_cons, List.foldl_cons, Nat.zero_max, ← hvalue]
    exact increment_eq_toDigits hdigits

/-- The maximum of some numbers and zero. -/
theorem isGreatest_foldl_max (numbers : List Nat) :
    IsGreatest (insert 0 {number | number ∈ numbers}) (numbers.foldl max 0) := by
  induction numbers using List.reverseRecOn with
  | nil =>
    refine ⟨.inl rfl, ?_⟩
    rintro number (rfl | hnumber)
    · exact Nat.le_refl 0
    · cases hnumber
  | append_singleton front last ih =>
    obtain ⟨hmem, hupper⟩ := ih
    rw [List.foldl_append, List.foldl_cons, List.foldl_nil]
    constructor
    · rcases Nat.le_total last (front.foldl max 0) with hle | hle
      · rw [Nat.max_eq_left hle]
        exact hmem.imp id fun hfront => List.mem_append_left _ hfront
      · rw [Nat.max_eq_right hle]
        exact .inr (List.mem_append_right _ (List.mem_singleton_self last))
    · rintro number (rfl | hnumber)
      · exact Nat.zero_le _
      · rcases List.mem_append.1 hnumber with hfront | hlast
        · exact le_max_of_le_left (hupper (.inr hfront))
        · rw [List.mem_singleton.1 hlast]
          exact Nat.le_max_right _ _

section Versions

variable {suffix base current : String} {highest : Nat} {versions : List String}

theorem highestOn_zero
    (h : ∀ version ∈ versions, ∀ number, ¬ Counted suffix base "" number version) :
    HighestOn suffix base versions 0 := by
  refine ⟨.inl rfl, ?_⟩
  rintro number (rfl | ⟨version, hversion, hcounted⟩)
  · exact Nat.le_refl 0
  · exact absurd hcounted (h version hversion number)

/-- A version with a number that is not below the highest one has the highest number among itself
and some of the versions. -/
theorem HighestOn.above {version : String} {number : Nat} {others : List String}
    (h : HighestOn suffix base versions highest) (hle : highest ≤ number)
    (hcounted : Counted suffix base "" number version) (hmem : version ∈ others)
    (hothers : ∀ other ∈ others, other = version ∨ other ∈ versions) :
    HighestOn suffix base others number := by
  refine ⟨.inr ⟨version, hmem, hcounted⟩, ?_⟩
  rintro lower (rfl | ⟨other, hother, hlower⟩)
  · exact Nat.zero_le _
  · rcases hothers other hother with rfl | hversion
    · exact Nat.le_of_eq (hlower.number_eq hcounted)
    · exact Nat.le_trans (h.2 (.inr ⟨other, hversion, hlower⟩)) hle

/-- The counters on a base write the numbers that the versions have on it. -/
theorem highestOn_countersOn (hsuffix : suffix ≠ "") (hline : '\n' ∉ base.toList)
    (versions : List String) : HighestOn suffix base versions
      (((countersOn base.toList suffix.toList (versions.map String.toList)).map valueOf).foldl
        max 0) := by
  have hnumbers : {number | ∃ version ∈ versions, Counted suffix base "" number version}
      = {number | number ∈ (countersOn base.toList suffix.toList
          (versions.map String.toList)).map valueOf} := by
    ext number
    constructor
    · rintro ⟨version, hversion, hcounted⟩
      obtain ⟨counter, hsplit, hvalue⟩ := hcounted.splitSuffixed? hsuffix hline
      exact List.mem_map.2 ⟨counter,
        mem_countersOn.2 ⟨_, List.mem_map_of_mem hversion, hsplit⟩, hvalue⟩
    · intro hnumber
      obtain ⟨counter, hcounter, rfl⟩ := List.mem_map.1 hnumber
      obtain ⟨candidate, hcandidate, hsplit⟩ := mem_countersOn.1 hcounter
      obtain ⟨version, hversion, rfl⟩ := List.mem_map.1 hcandidate
      refine ⟨version, hversion, ?_⟩
      have hcounted := counted_of_splitSuffixed? hsplit
      rwa [String.ofList_toList] at hcounted
  rw [HighestOn, hnumbers]
  exact isGreatest_foldl_max _

/-- However it is counted, the next version has a number, either behind the current version or behind
the base that this one has a number on. -/
theorem exists_nextVersion_eq (current : String) (candidates : List String) (suffix : String)
    (padding : Nat) : ∃ base number,
      nextVersion current candidates suffix padding = numbered base suffix padding number ∧
        (base = current ∨ ∃ own, Counted suffix base "" own current) := by
  have hnumber : ∀ front versions, ∃ number,
      counterAfter (countersOn front suffix.toList versions) = Nat.toDigits 10 number :=
    fun front versions => ⟨_, counterAfter_eq fun other hother => digits_of_mem_countersOn hother⟩
  cases hsplit : splitSuffixed? suffix.toList current.toList with
  | some parts =>
    obtain ⟨front, counter⟩ := parts
    obtain ⟨number, hcounter⟩ := hnumber front (current.toList :: candidates.map String.toList)
    refine ⟨String.ofList front, number, ?_, .inr ⟨_, counted_of_splitSuffixed? hsplit⟩⟩
    rw [nextVersion, nextChars_of_some _ padding hsplit, hcounter, numbered_eq,
      String.toList_ofList]
  | none =>
    obtain ⟨number, hcounter⟩ :=
      hnumber current.toList (current.toList :: candidates.map String.toList)
    refine ⟨current, number, ?_, .inl rfl⟩
    rw [nextVersion, nextChars_of_none _ padding hsplit, hcounter, numbered_eq]

theorem nextVersion?_eq_some_iff {candidates : List String} {padding : Nat} {version : String} :
    nextVersion? current candidates suffix padding = some version ↔
      padding ≤ widestPadding ∧ version = nextVersion current candidates suffix padding := by
  rw [nextVersion?]
  split
  · rename_i hwritable
    rw [Option.some.injEq]
    exact ⟨fun h => ⟨hwritable, h.symm⟩, fun h => h.2.symm⟩
  · rename_i hwide
    simp [hwide]

/-- The next version stands on the base of the current one, with the number behind the highest one
that the current version and the candidates have on it. -/
theorem nextVersion_eq_numbered (hsuffix : suffix ≠ "") (hline : '\n' ∉ base.toList)
    (hbase : StandsOn suffix current base) {candidates : List String}
    (hhighest : HighestOn suffix base (current :: candidates) highest) (padding : Nat) :
    nextVersion current candidates suffix padding = numbered base suffix padding (highest + 1) := by
  have hcounter : counterAfter
      (countersOn base.toList suffix.toList ((current :: candidates).map String.toList))
        = Nat.toDigits 10 (highest + 1) := by
    rw [counterAfter_eq fun other hother => digits_of_mem_countersOn hother,
      (highestOn_countersOn hsuffix hline (current :: candidates)).unique hhighest]
  rw [nextVersion, numbered_eq, ← hcounter, String.ofList_inj]
  rcases hbase with ⟨number, hcounted⟩ | ⟨hfree, rfl⟩
  · obtain ⟨counter, hsplit, -⟩ := hcounted.splitSuffixed? hsuffix hline
    exact nextChars_of_some _ padding hsplit
  · refine nextChars_of_none _ padding ?_
    cases hsplit : splitSuffixed? suffix.toList base.toList with
    | none => rfl
    | some parts => exact absurd (counted_of_splitSuffixed? hsplit) (hfree _ _)

/-- A version that was given out goes up by one where no candidate has a higher number. -/
theorem nextVersion_numbered (hsuffix : suffix ≠ "") (hline : '\n' ∉ base.toList)
    (hhighest : HighestOn suffix base versions highest)
    {candidates : List String} (hcandidates : candidates ⊆ versions) {number : Nat}
    (hle : highest ≤ number) (padding : Nat) :
    nextVersion (numbered base suffix padding number) candidates suffix padding
      = numbered base suffix padding (number + 1) := by
  have hcounted := counted_numbered base suffix padding number
  refine nextVersion_eq_numbered hsuffix hline (.inl ⟨number, hcounted⟩) ?_ padding
  refine hhighest.above hle hcounted List.mem_cons_self ?_
  intro other hother
  exact (List.mem_cons.1 hother).imp id (@hcandidates other)

end Versions

end BuildAlignment.Version
