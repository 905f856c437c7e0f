import BuildAlignment.Proofs.Version.Suffix

/-!
# Counting on from candidates

A version is counted up again and again with the same candidates. Only their numbers on its base
count, and they count once: the first time the highest of them is left behind.

* `Version.countUp?` is the version after counting up some times.
* `Version.counts_on_from_candidates`: each time the number goes up by one from the highest one, and
  candidates with the same numbers on the base give the same versions.
-/

namespace BuildAlignment.Version

variable {suffix base original : String} {highest padding : Nat} {candidates : List String}

/-- The version after counting up some times, with the same candidates each time. -/
def countUp? (candidates : List String) (suffix : String) (padding : Nat) (original : String) :
    Nat → Option String
  | 0 => some original
  | times + 1 => (countUp? candidates suffix padding original times).bind fun current =>
      nextVersion? current candidates suffix padding

/-- Each time the number goes up by one, from the highest one. -/
theorem countUp?_eq_some_iff (hsuffix : suffix ≠ "") (hline : '\n' ∉ base.toList)
    (hbase : StandsOn suffix original base)
    (hhighest : HighestOn suffix base (original :: candidates) highest) (times : Nat)
    {version : String} : countUp? candidates suffix padding original (times + 1) = some version ↔
      padding ≤ widestPadding ∧ version = numbered base suffix padding (highest + (times + 1)) := by
  induction times generalizing version with
  | zero =>
    rw [countUp?, countUp?, Option.bind_some, nextVersion?_eq_some_iff,
      nextVersion_eq_numbered hsuffix hline hbase hhighest]
  | succ times ih =>
    have hnext : nextVersion (numbered base suffix padding (highest + (times + 1))) candidates
        suffix padding = numbered base suffix padding (highest + (times + 1 + 1)) :=
      nextVersion_numbered hsuffix hline hhighest (List.subset_cons_self _ _)
        (Nat.le_add_right _ _) padding
    rw [countUp?, Option.bind_eq_some_iff]
    constructor
    · rintro ⟨current, hcurrent, hversion⟩
      obtain ⟨-, rfl⟩ := ih.1 hcurrent
      rw [nextVersion?_eq_some_iff, hnext] at hversion
      exact hversion
    · rintro ⟨hwritable, rfl⟩
      refine ⟨_, ih.2 ⟨hwritable, rfl⟩, ?_⟩
      rw [nextVersion?_eq_some_iff, hnext]
      exact ⟨hwritable, rfl⟩

/-- Candidates with the same numbers on a base have the same highest number on it, together with a
further version. -/
theorem HighestOn.congr {others : List String}
    (h : HighestOn suffix base (original :: candidates) highest)
    (hsame : ∀ number, (∃ other ∈ others, Counted suffix base "" number other) ↔
      ∃ candidate ∈ candidates, Counted suffix base "" number candidate) :
    HighestOn suffix base (original :: others) highest := by
  have hnumbers : {number | ∃ version ∈ original :: others, Counted suffix base "" number version}
      = {number | ∃ version ∈ original :: candidates, Counted suffix base "" number version} := by
    ext number
    simp only [Set.mem_ofPred_eq, List.exists_mem_cons_iff, hsame number]
  rwa [HighestOn, hnumbers]

/-- Counting a version up with the same candidates keeps its base and counts on from the highest
number that it and the candidates have on this base, for every counter that can be written. Only these
numbers matter: not their order, repetition or leading zeros, nor what stands on another base. -/
theorem counts_on_from_candidates (hsuffix : suffix ≠ "") (hline : '\n' ∉ original.toList)
    (candidates : List String) (padding : Nat) :
    ∃ base highest, StandsOn suffix original base ∧
      HighestOn suffix base (original :: candidates) highest ∧
      (∀ times version, 1 ≤ times →
        (countUp? candidates suffix padding original times = some version ↔
          padding ≤ widestPadding ∧ version = numbered base suffix padding (highest + times))) ∧
      ∀ others, (∀ number, (∃ other ∈ others, Counted suffix base "" number other) ↔
          ∃ candidate ∈ candidates, Counted suffix base "" number candidate) →
        ∀ times, countUp? others suffix padding original times
          = countUp? candidates suffix padding original times := by
  obtain ⟨base, hbase⟩ := exists_standsOn suffix original
  have hshort : '\n' ∉ base.toList := fun hmem => hline (hbase.mem hmem)
  have hhighest := highestOn_countersOn hsuffix hshort (original :: candidates)
  refine ⟨base, _, hbase, hhighest, ?_, ?_⟩
  · intro times version hpositive
    obtain ⟨earlier, rfl⟩ := Nat.exists_eq_add_of_le' hpositive
    exact countUp?_eq_some_iff hsuffix hshort hbase hhighest earlier
  · intro others hsame times
    cases times with
    | zero => rfl
    | succ earlier =>
      refine Option.ext fun version => ?_
      rw [countUp?_eq_some_iff hsuffix hshort hbase (hhighest.congr hsame) earlier,
        countUp?_eq_some_iff hsuffix hshort hbase hhighest earlier]

/-- A suffix with a hyphen and a digit, candidates in another order and padding, and a candidate on
another base. -/
theorem counts_on_from_shuffled :
    let candidates := ["1.0-rc-1-0010", "2.0-rc-1-99", "1.0-rc-1-7"]
    "rc-1" ≠ "" ∧ '\n' ∉ "1.0-rc-1-2".toList ∧
      countUp? candidates "rc-1" 3 "1.0-rc-1-2" 2 = some "1.0-rc-1-012" ∧
      ∃ base highest, StandsOn "rc-1" "1.0-rc-1-2" base ∧
        HighestOn "rc-1" base ("1.0-rc-1-2" :: candidates) highest ∧
        "1.0-rc-1-012" = numbered base "rc-1" 3 (highest + 2) := by
  intro candidates
  have hsuffix : "rc-1" ≠ "" := by decide
  have hline : '\n' ∉ "1.0-rc-1-2".toList := by decide
  have htwice : countUp? candidates "rc-1" 3 "1.0-rc-1-2" 2 = some "1.0-rc-1-012" := by decide
  obtain ⟨base, highest, hbase, hhighest, htimes, -⟩ :=
    counts_on_from_candidates hsuffix hline candidates 3
  exact ⟨hsuffix, hline, htwice, base, highest, hbase, hhighest,
    ((htimes 2 _ (by decide)).1 htwice).2⟩

/-- A counter that is to be filled up further than can be written is not given out. -/
theorem uncounted_of_wide_padding : "redhat" ≠ "" ∧ '\n' ∉ "1.0".toList ∧
    ∀ base highest, countUp? ["1.0-redhat-4"] "redhat" 65536 "1.0" 1
      ≠ some (numbered base "redhat" 65536 (highest + 1)) := by
  refine ⟨by decide, by decide, ?_⟩
  intro base highest h
  rw [countUp?, countUp?, Option.bind_some, nextVersion?_eq_some_iff] at h
  exact absurd h.1 (by decide)

end BuildAlignment.Version
