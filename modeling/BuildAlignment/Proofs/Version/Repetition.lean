import BuildAlignment.Proofs.Version.Snapshot

/-!
# Counting from run to run

The version that one run gives out is the previous version of the next run. Its snapshot marker, if
it has one, is taken off before it is taken apart.

* `ProjectVersionSettings.CountsOn`: the base and the number that a run counts on from.
* `ProjectVersionSettings.computeAgain?` is the version of a run after some earlier ones.
* `ProjectVersionSettings.counts_run_by_run`: each run counts up by one and puts the same marker behind its
  number, and it gives an answer exactly where what was given out before can be cut.
-/

namespace BuildAlignment.ProjectVersionSettings

open Version (Counted Cuttable HighestOn Marked StandsOn nextVersion numbered snapshotOf_append
  stripSnapshot? widestPadding)

variable {settings : ProjectVersionSettings} {authority : Option String}
  {declared input release base version : String} {highest : Nat}

/-- What is put behind the version that counts on from an input. -/
def mark (settings : ProjectVersionSettings) (input release : String) : String :=
  if settings.preserveSnapshot && release != input then "-SNAPSHOT" else ""

/-- The version that a run gives out with a number. -/
def given (settings : ProjectVersionSettings) (input release base : String) (number : Nat) :
    String :=
  numbered base settings.suffix settings.padding number ++ settings.mark input release

/-- A marker is put back where it is to be kept and there was one. -/
theorem mark_cases (hrelease : stripSnapshot? input = some release) :
    settings.mark input release = "-SNAPSHOT" ∧ settings.preserveSnapshot = true ∧ Marked input ∨
      settings.mark input release = ""
        ∧ ¬ (settings.preserveSnapshot = true ∧ Marked input) := by
  rw [Version.marked_iff_ne hrelease, mark]
  split
  · rename_i hkeeps
    exact .inl ⟨rfl, by simpa using hkeeps⟩
  · rename_i hkeeps
    exact .inr ⟨rfl, by simpa using hkeeps⟩

theorem of_countOn?_eq_some {candidates : List String}
    (h : settings.countOn? input release candidates = some version) :
    version = nextVersion release candidates settings.suffix settings.padding
      ++ settings.mark input release := by
  obtain ⟨next, hnext, hmarked⟩ := Option.map_eq_some_iff.1 h
  rw [← hmarked, (Version.nextVersion?_eq_some_iff.1 hnext).2, mark]
  split
  · rfl
  · exact String.append_empty.symm

/-- Where the version of a build is counted on, it is the next one of the release, with the earlier
release as a candidate if there is one. -/
theorem of_compute?_eq_some (henabled : settings.enabled = true)
    (hfree : settings.versionOverride = none)
    (h : settings.compute? authority declared = some version) :
    ∃ release, stripSnapshot? (authority.getD declared) = some release ∧
      version = nextVersion release (settings.previousVersion.bind stripSnapshot?).toList
          settings.suffix settings.padding
        ++ settings.mark (authority.getD declared) release := by
  rw [compute?, henabled, hfree] at h
  simp only [Bool.not_true, Bool.false_eq_true, if_false] at h
  cases hrelease : stripSnapshot? (authority.getD declared) with
  | none => rw [hrelease] at h; cases h
  | some release =>
    rw [hrelease] at h
    refine ⟨release, rfl, ?_⟩
    cases hprevious : settings.previousVersion with
    | none =>
      rw [hprevious] at h
      exact of_countOn?_eq_some h
    | some previous =>
      rw [hprevious, Option.map_some] at h
      rw [Option.bind_some]
      cases hearlier : stripSnapshot? previous with
      | none => rw [hearlier] at h; cases h
      | some earlier =>
        rw [hearlier] at h
        exact of_countOn?_eq_some h

/-! ### What a run counts on from -/

/-- Settings that count on from the release of an input: its base, and the highest number that the
release and the previous version have on it. -/
structure CountsOn (settings : ProjectVersionSettings) (input release base : String)
    (highest : Nat) : Prop where
  enabled : settings.enabled = true
  free : settings.versionOverride = none
  suffix_ne : settings.suffix ≠ ""
  released : stripSnapshot? input = some release
  line : '\n' ∉ release.toList
  stands : StandsOn settings.suffix release base
  highestOn : HighestOn settings.suffix base
    (release :: (settings.previousVersion.bind stripSnapshot?).toList) highest

namespace CountsOn

theorem base_line (counts : settings.CountsOn input release base highest) :
    '\n' ∉ base.toList :=
  fun hmem => counts.line (counts.stands.mem hmem)

/-- A run gives out the number behind the highest one, where the previous version can be cut and the
counter can be written. -/
theorem compute?_eq_some_iff
    (counts : settings.CountsOn (authority.getD declared) release base highest) :
    settings.compute? authority declared = some version ↔
      version = settings.given (authority.getD declared) release base (highest + 1) ∧
        settings.padding ≤ widestPadding ∧
        ∀ previous ∈ settings.previousVersion, Cuttable previous := by
  have hvalue : ∀ {version}, settings.compute? authority declared = some version →
      version = settings.given (authority.getD declared) release base (highest + 1) := by
    intro version h
    obtain ⟨same, hsame, hversion⟩ := of_compute?_eq_some counts.enabled counts.free h
    cases counts.released.symm.trans hsame
    rwa [Version.nextVersion_eq_numbered counts.suffix_ne counts.base_line counts.stands
      counts.highestOn] at hversion
  constructor
  · intro h
    obtain ⟨-, hprevious, hwritable⟩ :=
      isSome_compute?_iff.1 (Option.isSome_iff_exists.2 ⟨version, h⟩) counts.enabled counts.free
    exact ⟨hvalue h, hwritable, hprevious⟩
  · rintro ⟨rfl, hwritable, hprevious⟩
    have hinput : Cuttable (authority.getD declared) :=
      Option.isSome_iff_exists.2 ⟨release, counts.released⟩
    obtain ⟨computed, hcomputed⟩ := Option.isSome_iff_exists.1
      (isSome_compute?_iff.2 fun _ _ => ⟨hinput, hprevious, hwritable⟩)
    rw [hcomputed, hvalue hcomputed]

end CountsOn

/-- A version that was counted is without its marker the version that was counted. -/
theorem eq_of_stripSnapshot?_mark {suffix next stripped : String} {number : Nat}
    (hnext : Counted suffix base "" number next)
    (h : stripSnapshot? (next ++ settings.mark input release) = some stripped) :
    stripped = next := by
  rw [mark] at h
  split at h
  · rw [Version.stripSnapshot?_of_snapshotOf (snapshotOf_append next)] at h
    exact (Option.some.inj h).symm
  · rw [String.append_empty] at h
    exact (Version.of_stripSnapshot?_eq_some h).resolve_left
      fun hof => hnext.not_marked ⟨stripped, hof⟩

/-- The run after a version was given out counts on from the number of this version. -/
theorem CountsOn.next (counts : settings.CountsOn input release base highest) {number : Nat}
    (hle : highest ≤ number) (hcuttable : Cuttable (settings.given input release base number)) :
    { settings with previousVersion := some (settings.given input release base number) }.CountsOn
      input release base number := by
  have hnumber := Version.counted_numbered base settings.suffix settings.padding number
  obtain ⟨earlier, hearlier⟩ := Option.isSome_iff_exists.1 hcuttable
  have hbare := eq_of_stripSnapshot?_mark hnumber hearlier
  refine { counts with highestOn := ?_ }
  rw [Option.bind_some, hearlier, hbare]
  refine counts.highestOn.above hle hnumber
    (List.mem_cons_of_mem _ (List.mem_singleton_self _)) ?_
  intro other hother
  rcases List.mem_cons.1 hother with rfl | hgiven
  · exact .inr List.mem_cons_self
  · exact .inl (List.mem_singleton.1 hgiven)

/-! ### One run after the other -/

/-- The version of a run after some earlier ones, each of which gives the next one its previous
version. -/
def computeAgain? (settings : ProjectVersionSettings) (authority : Option String)
    (declared : String) : Nat → Option String
  | 0 => settings.compute? authority declared
  | earlier + 1 => (settings.computeAgain? authority declared earlier).bind fun previous =>
      { settings with previousVersion := some previous }.compute? authority declared

/-- Each run gives out the next number, as long as what was given out before can be cut. -/
theorem CountsOn.computeAgain?_eq_some_iff
    (counts : settings.CountsOn (authority.getD declared) release base highest) (runs : Nat)
    {version : String} :
    settings.computeAgain? authority declared runs = some version ↔
      version = settings.given (authority.getD declared) release base (highest + (runs + 1)) ∧
        settings.padding ≤ widestPadding ∧
        (∀ previous ∈ settings.previousVersion, Cuttable previous) ∧
        ∀ earlier < runs, Cuttable
          (settings.given (authority.getD declared) release base (highest + (earlier + 1))) := by
  induction runs generalizing version with
  | zero =>
    rw [computeAgain?, counts.compute?_eq_some_iff]
    simp
  | succ runs ih =>
    rw [computeAgain?, Option.bind_eq_some_iff]
    constructor
    · rintro ⟨previous, hprevious, hversion⟩
      obtain ⟨rfl, hwritable, hfirst, hearlier⟩ := ih.1 hprevious
      have hcut := (isSome_compute?_iff.1 (Option.isSome_iff_exists.2 ⟨version, hversion⟩)
        counts.enabled counts.free).2.1 _ rfl
      refine ⟨?_, hwritable, hfirst, ?_⟩
      · exact ((counts.next (Nat.le_add_right _ _) hcut).compute?_eq_some_iff.1 hversion).1
      · intro earlier hlt
        rcases Nat.lt_succ_iff_lt_or_eq.1 hlt with hbefore | rfl
        · exact hearlier earlier hbefore
        · exact hcut
    · rintro ⟨rfl, hwritable, hfirst, hearlier⟩
      have hcut := hearlier runs (Nat.lt_succ_self runs)
      refine ⟨_, ih.2 ⟨rfl, hwritable, hfirst, fun earlier hlt => hearlier earlier (by omega)⟩, ?_⟩
      refine (counts.next (Nat.le_add_right _ _) hcut).compute?_eq_some_iff.2 ⟨rfl, hwritable, ?_⟩
      intro previous hprevious
      rwa [← Option.mem_some.1 hprevious]

/-- Settings that count have a base and a highest number to count on from. -/
theorem exists_countsOn (henabled : settings.enabled = true)
    (hfree : settings.versionOverride = none) (hsuffix : settings.suffix ≠ "")
    (hrelease : stripSnapshot? input = some release) (hline : '\n' ∉ release.toList) :
    ∃ base highest, settings.CountsOn input release base highest := by
  obtain ⟨base, hbase⟩ := Version.exists_standsOn settings.suffix release
  have hhighest := Version.highestOn_countersOn hsuffix (fun hmem => hline (hbase.mem hmem))
    (release :: (settings.previousVersion.bind stripSnapshot?).toList)
  exact ⟨base, _, henabled, hfree, hsuffix, hrelease, hline, hbase, hhighest⟩

/-- When the version that was computed is the previous one of the next computation, the base and the
suffix stay and the number is one more. -/
theorem counted_of_compute? (henabled : settings.enabled = true)
    (hfree : settings.versionOverride = none) (hsuffix : settings.suffix ≠ "")
    (hline : '\n' ∉ (authority.getD declared).toList) {first second : String}
    (hfirst : settings.compute? authority declared = some first)
    (hsecond : { settings with previousVersion := some first }.compute? authority declared
      = some second) :
    ∃ base number mark, (mark = "" ∨ mark = "-SNAPSHOT") ∧
      Counted settings.suffix base mark number first ∧
      Counted settings.suffix base mark (number + 1) second := by
  obtain ⟨release, hrelease, -⟩ := of_compute?_eq_some henabled hfree hfirst
  obtain ⟨base, highest, counts⟩ := exists_countsOn henabled hfree hsuffix hrelease
    fun hmem => hline (Version.mem_of_stripSnapshot? hrelease hmem)
  obtain ⟨rfl, -⟩ := (counts.computeAgain?_eq_some_iff 0).1 hfirst
  obtain ⟨rfl, -⟩ := (counts.computeAgain?_eq_some_iff 1).1
    (Option.bind_eq_some_iff.2 ⟨_, hfirst, hsecond⟩)
  refine ⟨base, _, settings.mark (authority.getD declared) release, ?_,
    (Version.counted_numbered _ _ _ _).append _, (Version.counted_numbered _ _ _ _).append _⟩
  exact (mark_cases hrelease).symm.imp And.left And.left

/-- Runs on one input, each with the version of the one before as its previous version, keep to the
base of the release and count on from the highest number that the release and the first previous
version have on it. A marker stands behind each number where it is to be kept and the input has one.
A run gives an answer exactly where the counter can be written and what it starts from can be cut. -/
theorem counts_run_by_run (henabled : settings.enabled = true) (hfree : settings.versionOverride = none)
    (hsuffix : settings.suffix ≠ "")
    (hrelease : stripSnapshot? (authority.getD declared) = some release)
    (hline : '\n' ∉ release.toList) :
    ∃ base highest mark, StandsOn settings.suffix release base ∧
      HighestOn settings.suffix base
        (release :: (settings.previousVersion.bind stripSnapshot?).toList) highest ∧
      (mark = "-SNAPSHOT" ∧ settings.preserveSnapshot = true ∧ Marked (authority.getD declared) ∨
        mark = "" ∧ ¬ (settings.preserveSnapshot = true ∧ Marked (authority.getD declared))) ∧
      ∀ runs version, settings.computeAgain? authority declared runs = some version ↔
        version = numbered base settings.suffix settings.padding (highest + (runs + 1)) ++ mark ∧
          settings.padding ≤ widestPadding ∧
          (∀ previous ∈ settings.previousVersion, Cuttable previous) ∧
          ∀ earlier < runs, Cuttable
            (numbered base settings.suffix settings.padding (highest + (earlier + 1)) ++ mark) := by
  obtain ⟨base, highest, counts⟩ := exists_countsOn henabled hfree hsuffix hrelease hline
  exact ⟨base, highest, settings.mark (authority.getD declared) release, counts.stands,
    counts.highestOn, mark_cases hrelease, fun runs _ => counts.computeAgain?_eq_some_iff runs⟩

/-- A development version with an earlier release on its base, and a marker in another case. -/
theorem counts_run_by_run_of_development :
    let settings : ProjectVersionSettings :=
      { padding := 3, preserveSnapshot := true, previousVersion := some "1.0-redhat-8-SNAPSHOT" }
    let input := "1.0-redhat-0004.Snapshot"
    settings.enabled = true ∧ settings.versionOverride = none ∧ settings.suffix ≠ "" ∧
      stripSnapshot? input = some "1.0-redhat-0004" ∧ '\n' ∉ "1.0-redhat-0004".toList ∧
      settings.computeAgain? none input 1 = some "1.0-redhat-010-SNAPSHOT" ∧
      ∃ base highest mark, StandsOn settings.suffix "1.0-redhat-0004" base ∧
        HighestOn settings.suffix base ["1.0-redhat-0004", "1.0-redhat-8"] highest ∧
        (mark = "-SNAPSHOT" ∧ settings.preserveSnapshot = true ∧ Marked input ∨
          mark = "" ∧ ¬ (settings.preserveSnapshot = true ∧ Marked input)) ∧
        "1.0-redhat-010-SNAPSHOT"
          = numbered base settings.suffix settings.padding (highest + 2) ++ mark := by
  intro settings input
  have hsuffix : settings.suffix ≠ "" := by decide
  have hrelease : stripSnapshot? input = some "1.0-redhat-0004" := by decide
  have hline : '\n' ∉ "1.0-redhat-0004".toList := by decide
  have hagain : settings.computeAgain? none input 1 = some "1.0-redhat-010-SNAPSHOT" := by decide
  have hprevious : settings.previousVersion.bind stripSnapshot? = some "1.0-redhat-8" := by decide
  obtain ⟨base, highest, mark, hbase, hhighest, hmark, hruns⟩ :=
    @counts_run_by_run settings none input _ rfl rfl hsuffix hrelease hline
  rw [hprevious] at hhighest
  exact ⟨rfl, rfl, hsuffix, hrelease, hline, hagain, base, highest, mark, hbase, hhighest, hmark,
    ((hruns 1 _).1 hagain).1⟩

end BuildAlignment.ProjectVersionSettings
