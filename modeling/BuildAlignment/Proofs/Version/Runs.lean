import BuildAlignment.Proofs.Version.Suffix
import Mathlib.Data.List.SplitBy

/-!
# Suffixes in a row

A version is given one suffix after the other. Equal suffixes in a row count up, and another suffix
begins behind what is there, with a counter of its own.

* `Version.appended?` is the version after suffixes were put behind it in turn.
* `Version.appended?_replicate`: a run of one suffix leaves one counter, the length of the run.
* `Version.appended?_eq_some_iff`: suffixes in a row leave one counter for each run of equal ones.
-/

namespace BuildAlignment.Version

variable {version suffix : String} {padding : Nat}

/-- The version after each of some suffixes was put behind it in turn. -/
def appended? (padding : Nat) (version : String) (suffixes : List String) : Option String :=
  suffixes.foldlM (fun current suffix => nextVersion? current [] suffix padding) version

/-- What a run of one suffix leaves behind a version: the suffix and the length of the run. -/
def runText (padding : Nat) : List String → String
  | [] => ""
  | suffix :: rest => "-" ++ suffix ++ "-" ++ decimal padding (rest.length + 1)

/-- A suffix of one part that stands on one line. -/
structure Plain (suffix : String) : Prop where
  ne_empty : suffix ≠ ""
  no_hyphen : '-' ∉ suffix.toList
  line : '\n' ∉ suffix.toList

theorem appended?_append (padding : Nat) (version : String) (front rest : List String) :
    appended? padding version (front ++ rest)
      = (appended? padding version front).bind (appended? padding · rest) :=
  List.foldlM_append

theorem appended?_singleton (padding : Nat) (version suffix : String) :
    appended? padding version [suffix] = nextVersion? version [] suffix padding := by
  simp [appended?]

/-- A counter that cannot be written stops the row at its first suffix. -/
theorem le_widestPadding_of_appended? {suffixes : List String} (hne : suffixes ≠ [])
    {result : String} (h : appended? padding version suffixes = some result) :
    padding ≤ widestPadding := by
  obtain ⟨suffix, rest, rfl⟩ := List.exists_cons_of_ne_nil hne
  rw [← List.singleton_append, appended?_append, appended?_singleton,
    Option.bind_eq_some_iff] at h
  obtain ⟨next, hnext, -⟩ := h
  exact (nextVersion?_eq_some_iff.1 hnext).1

/-! ### One run -/

/-- A suffix that the version does not count gets the counter one. -/
theorem nextVersion_of_fresh (hplain : Plain suffix) (hline : '\n' ∉ version.toList)
    (hfresh : Fresh suffix version) (padding : Nat) :
    nextVersion version [] suffix padding = numbered version suffix padding 1 := by
  refine nextVersion_eq_numbered hplain.ne_empty hline (.inr ⟨hfresh, rfl⟩) ?_ padding
  refine highestOn_zero fun other hother number => ?_
  rw [List.mem_singleton.1 hother]
  exact hfresh version number

/-- A run of one suffix leaves one counter behind the version. -/
theorem appended?_replicate (hplain : Plain suffix) (hline : '\n' ∉ version.toList)
    (hfresh : Fresh suffix version) (hwritable : padding ≤ widestPadding) (more : Nat) :
    appended? padding version (List.replicate (more + 1) suffix)
      = some (numbered version suffix padding (more + 1)) := by
  induction more with
  | zero =>
    rw [List.replicate_one, appended?_singleton, nextVersion?_eq_some_iff,
      nextVersion_of_fresh hplain hline hfresh]
    exact ⟨hwritable, rfl⟩
  | succ more ih =>
    have hnone : HighestOn suffix version [] 0 := highestOn_zero fun _ hother => nomatch hother
    rw [List.replicate_succ', appended?_append, ih, Option.bind_some, appended?_singleton,
      nextVersion?_eq_some_iff, nextVersion_numbered hplain.ne_empty hline hnone
        (List.nil_subset _) (Nat.zero_le _)]
    exact ⟨hwritable, rfl⟩

/-- Another suffix does not take the counter of a run for its own. -/
theorem fresh_numbered {other : String} (hplain : Plain suffix) (hother : Plain other)
    (hne : suffix ≠ other) (number : Nat) :
    Fresh other (numbered version suffix padding number) := by
  intro front second hcounted
  have hfront := (counted_numbered version suffix padding number).front_eq hcounted
  have hword : ∀ {word : String}, Plain word → ∀ d ∈ word.toList, (d != '-') = true := by
    intro word hword d hd
    rw [bne_iff_ne]
    rintro rfl
    exact hword.no_hyphen hd
  have hsame := (append_cons_inj (hword hplain) (hword hother) (by decide) hfront).2
  exact hne (String.toList_inj.1 hsame)

theorem line_numbered (hplain : Plain suffix) (hline : '\n' ∉ version.toList) (number : Nat) :
    '\n' ∉ (numbered version suffix padding number).toList := by
  obtain ⟨counter, hversion, hdigits, -⟩ :=
    (counted_numbered version suffix padding number).toList_eq
  have hcounter : '\n' ∉ counter := fun hmem => absurd (hdigits _ hmem) (by decide)
  rw [hversion]
  simp [hline, hplain.line, hcounter]

/-! ### Run after run -/

theorem exists_replicate_of_mem_splitBy {suffixes run : List String}
    (h : run ∈ suffixes.splitBy (· == ·)) :
    ∃ suffix more, run = List.replicate (more + 1) suffix := by
  obtain ⟨suffix, rest, rfl⟩ := List.exists_cons_of_ne_nil (List.ne_nil_of_mem_splitBy h)
  have hchain : (suffix :: rest).IsChain (· = ·) := by
    simpa using List.isChain_of_mem_splitBy h
  have hsame : ∀ other ∈ rest, other = suffix := fun other hother =>
    (List.pairwise_cons.1 (List.isChain_iff_pairwise.1 hchain)).1 other hother |>.symm
  refine ⟨suffix, rest.length, ?_⟩
  rw [List.replicate_succ, ← List.eq_replicate_of_mem hsame]

/-- Runs of different suffixes leave their counters one behind the other. -/
theorem appended?_flatten {runs : List (List String)}
    (hruns : ∀ run ∈ runs, ∃ suffix more, run = List.replicate (more + 1) suffix)
    (hchain : runs.IsChain fun a b => ∃ ha hb, (a.getLast ha == b.head hb) = false)
    (hplain : ∀ suffix ∈ runs.flatten, Plain suffix) (hline : '\n' ∉ version.toList)
    (hfresh : ∀ suffix ∈ runs.flatten.head?, Fresh suffix version)
    (hwritable : padding ≤ widestPadding) :
    appended? padding version runs.flatten
      = some (version ++ String.join (runs.map (runText padding))) := by
  -- The induction is on the runs, from any version that has no counter of the first suffix.
  induction runs generalizing version with
  | nil => simp [appended?, String.join]
  | cons run rest ih =>
    obtain ⟨suffix, more, rfl⟩ := hruns run List.mem_cons_self
    rw [List.flatten_cons] at hplain hfresh ⊢
    have hsuffix : Plain suffix :=
      hplain suffix (List.mem_append_left _ (List.mem_replicate.2 ⟨Nat.succ_ne_zero _, rfl⟩))
    have hfirst : Fresh suffix version := hfresh suffix (by simp [List.replicate_succ])
    have hnext : ∀ next ∈ rest.flatten.head?,
        Fresh next (numbered version suffix padding (more + 1)) := by
      intro next hhead
      cases rest with
      | nil => cases hhead
      | cons second others =>
        obtain ⟨other, further, rfl⟩ := hruns second (List.mem_cons_of_mem _ List.mem_cons_self)
        obtain ⟨_, _, hne⟩ := (List.isChain_cons_cons.1 hchain).1
        rw [List.getLast_replicate, List.head_replicate, beq_eq_false_iff_ne] at hne
        have hsame : other = next := by simpa [List.replicate_succ] using hhead
        rw [← hsame]
        refine fresh_numbered hsuffix (hplain other ?_) hne _
        simp [List.mem_replicate]
    rw [appended?_append, appended?_replicate hsuffix hline hfirst hwritable, Option.bind_some,
      ih (fun other hother => hruns other (List.mem_cons_of_mem _ hother)) hchain.tail
        (fun other hother => hplain other (List.mem_append_right _ hother))
        (line_numbered hsuffix hline _) hnext,
      List.map_cons, String.join_cons, List.replicate_succ, runText, List.length_replicate,
      numbered]
    simp only [String.append_assoc]

/-- Suffixes that are put behind a version one after the other leave, for each run of equal ones, the
suffix and a counter with the length of the run, for every counter that can be written. -/
theorem appended?_eq_some_iff {suffixes : List String} (hline : '\n' ∉ version.toList)
    (hne : suffixes ≠ []) (hplain : ∀ suffix ∈ suffixes, Plain suffix)
    (hfresh : ∀ suffix ∈ suffixes.head?, Fresh suffix version) {result : String} :
    appended? padding version suffixes = some result ↔
      padding ≤ widestPadding ∧
        result = version ++ String.join ((suffixes.splitBy (· == ·)).map (runText padding)) := by
  have hvalue : padding ≤ widestPadding → appended? padding version suffixes
      = some (version ++ String.join ((suffixes.splitBy (· == ·)).map (runText padding))) := by
    intro hwritable
    have hruns := @appended?_flatten version padding (suffixes.splitBy (· == ·))
      (fun run hrun => exists_replicate_of_mem_splitBy hrun)
      (List.isChain_getLast_head_splitBy _ suffixes)
    rw [List.flatten_splitBy] at hruns
    exact hruns hplain hline hfresh hwritable
  constructor
  · intro h
    have hwritable := le_widestPadding_of_appended? hne h
    rw [hvalue hwritable, Option.some.injEq] at h
    exact ⟨hwritable, h.symm⟩
  · rintro ⟨hwritable, rfl⟩
    exact hvalue hwritable

/-- Suffixes that come back, that are digits, and that have characters of other grammars, behind a
version that almost ends in a counter. -/
theorem appended?_of_five_runs :
    let suffixes := ["a", "a", "12", "a", "b.c", "b.c", "b.c", "12"]
    '\n' ∉ "1.0-a-7x".toList ∧ suffixes ≠ [] ∧ (∀ suffix ∈ suffixes, Plain suffix) ∧
      (∀ suffix ∈ suffixes.head?, Fresh suffix "1.0-a-7x") ∧
      appended? 2 "1.0-a-7x" suffixes = some "1.0-a-7x-a-02-12-01-a-01-b.c-03-12-01" := by
  intro suffixes
  have hline : '\n' ∉ "1.0-a-7x".toList := by decide
  have hne : suffixes ≠ [] := by decide
  have hplain : ∀ suffix ∈ suffixes, Plain suffix := by
    intro suffix hsuffix
    have hparts : ∀ suffix ∈ suffixes,
        suffix ≠ "" ∧ '-' ∉ suffix.toList ∧ '\n' ∉ suffix.toList := by decide
    obtain ⟨hempty, hhyphen, hfeed⟩ := hparts suffix hsuffix
    exact ⟨hempty, hhyphen, hfeed⟩
  have hfresh : ∀ suffix ∈ suffixes.head?, Fresh suffix "1.0-a-7x" := by
    rintro suffix ⟨⟩
    exact fresh_of_splitSuffixed? (by decide) hline (by decide)
  refine ⟨hline, hne, hplain, hfresh, ?_⟩
  exact (appended?_eq_some_iff hline hne hplain hfresh).2 ⟨by decide, by decide⟩

/-- A counter that is to be filled up further than can be written is not put behind a version. -/
theorem unappended_of_wide_padding :
    '\n' ∉ "1.0".toList ∧ ["redhat"] ≠ [] ∧ (∀ suffix ∈ ["redhat"], Plain suffix) ∧
      (∀ suffix ∈ ["redhat"].head?, Fresh suffix "1.0") ∧
      appended? 65536 "1.0" ["redhat"]
        ≠ some ("1.0" ++ String.join ((["redhat"].splitBy (· == ·)).map (runText 65536))) := by
  have hline : '\n' ∉ "1.0".toList := by decide
  refine ⟨hline, List.cons_ne_nil _ _, ?_, ?_, ?_⟩
  · intro suffix hsuffix
    rw [List.mem_singleton.1 hsuffix]
    exact ⟨by decide, by decide, by decide⟩
  · rintro suffix ⟨⟩
    exact fresh_of_splitSuffixed? (by decide) hline (by decide)
  · intro h
    exact absurd (le_widestPadding_of_appended? (List.cons_ne_nil _ _) h) (by decide)

end BuildAlignment.Version
