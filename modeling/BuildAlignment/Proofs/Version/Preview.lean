import BuildAlignment.Proofs.Settings
import BuildAlignment.Proofs.Version.Repetition
import BuildAlignment.Version.Preview

/-!
# Previews and what is assigned

The preview of a version counts the version itself up. An alignment takes the snapshot marker off
first, so the two agree where there is none.

* `Version.preview_eq_assigned_iff`: what an alignment assigns is the preview of the release, which is
  the preview of the version exactly where the version has no marker.
-/

namespace BuildAlignment.Version

variable {settings : Settings} {release version suffix : String}

theorem cuttable_of_toNat_lt (h : ∀ c ∈ version.toList, c.toNat < 128) : Cuttable version :=
  cuttable_of_ascii fun c hc => utf8Size_of_toNat_lt (h c hc)

/-- Settings that pass the checks are accepted for a preview. -/
theorem preview_of_valid (valid : settings.validate = .ok ()) (version : String) :
    preview version settings.suffix settings.padding
      = .ok (nextVersion version [] settings.suffix settings.padding) := by
  obtain ⟨hpositive, hbounded, hblank, -⟩ := Settings.of_validate_eq_ok valid
  rw [preview, hblank, if_neg Bool.false_ne_true, if_neg]
  rintro (hzero | hwide)
  · exact hpositive hzero
  · exact Nat.not_lt.2 hbounded hwide

/-- Without a previous version, what is assigned is the next version of the release. -/
theorem assigned_of_released (padding : Nat) (hwritable : padding ≤ widestPadding)
    (hrelease : stripSnapshot? version = some release) :
    ProjectVersionSettings.compute? { suffix, padding } none version
      = some (nextVersion release [] suffix padding) := by
  have hcuttable : Cuttable version := Option.isSome_iff_exists.2 ⟨release, hrelease⟩
  have hnone : ∀ previous ∈ (none : Option String), Cuttable previous := by
    intro previous hmem
    cases hmem
  obtain ⟨assigned, hassigned⟩ := Option.isSome_iff_exists.1
    ((@ProjectVersionSettings.isSome_compute?_iff { suffix, padding } none version).2
      fun _ _ => ⟨hcuttable, hnone, hwritable⟩)
  obtain ⟨same, hsame, hvalue⟩ := ProjectVersionSettings.of_compute?_eq_some rfl rfl hassigned
  cases hrelease.symm.trans hsame
  rw [hassigned, hvalue]
  exact congrArg some String.append_empty

/-- With a snapshot marker, the next version of a version is not the one of its release. -/
theorem nextVersion_ne_of_snapshotOf (hof : SnapshotOf release version) (padding : Nat) :
    nextVersion version [] suffix padding ≠ nextVersion release [] suffix padding := by
  obtain ⟨base, number, hnext, hbase⟩ := exists_nextVersion_eq version [] suffix padding
  obtain ⟨front, second, hassigned, hfront⟩ := exists_nextVersion_eq release [] suffix padding
  rw [hnext, hassigned]
  intro hsame
  -- Both numbers stand on one base, which is the version with its marker.
  have hstem := (counted_numbered base suffix padding number).front_eq
    (hsame ▸ counted_numbered front suffix padding second)
  have hequal : base.toList = front.toList := List.append_cancel_right hstem
  have hkept : base = version :=
    hbase.resolve_right fun ⟨_, hcounted⟩ => hcounted.not_marked ⟨release, hof⟩
  have hshort : front.toList.length ≤ release.toList.length := by
    rcases hfront with rfl | ⟨own, hcounted⟩
    · exact Nat.le_refl _
    · obtain ⟨counter, hrelease, -⟩ := hcounted.toList_eq
      rw [hrelease, List.length_append]
      exact Nat.le_add_right _ _
  obtain ⟨separator, marker, -, -, hversion⟩ := hof
  rw [← hequal, hkept, hversion, List.length_append, List.length_cons] at hshort
  omega

/-- Settings that pass the checks give every version of ASCII characters a preview and an assigned
version. What is assigned is the preview of the release, and it is the preview of the version exactly
where this one has no snapshot marker. -/
theorem preview_eq_assigned_iff (valid : settings.validate = .ok ())
    (hascii : ∀ c ∈ version.toList, c.toNat < 128) : ∃ next assigned,
      preview version settings.suffix settings.padding = .ok next ∧
      ProjectVersionSettings.compute? { suffix := settings.suffix, padding := settings.padding } none
        version = some assigned ∧
      (∃ release, (SnapshotOf release version ∨ ¬ Marked version ∧ release = version) ∧
        preview release settings.suffix settings.padding = .ok assigned) ∧
      (next = assigned ↔ ¬ Marked version) := by
  have hwritable : settings.padding ≤ widestPadding :=
    Nat.le_trans (Settings.of_validate_eq_ok valid).2.1 maxPadding_le_widestPadding
  obtain ⟨release, hrelease⟩ := Option.isSome_iff_exists.1 (cuttable_of_toNat_lt hascii)
  have hkinds : SnapshotOf release version ∨ ¬ Marked version ∧ release = version :=
    (stripSnapshot?_eq_some_iff.1 hrelease).imp id fun h => ⟨h.1, h.2.2⟩
  refine ⟨_, _, preview_of_valid valid version,
    assigned_of_released settings.padding hwritable hrelease,
    ⟨release, hkinds, preview_of_valid valid release⟩, ?_⟩
  rcases hkinds with hof | ⟨hmarked, rfl⟩
  · refine iff_of_false (nextVersion_ne_of_snapshotOf hof _) ?_
    exact not_not_intro ⟨release, hof⟩
  · exact iff_of_true rfl hmarked

theorem toNat_lt_of_all (h : version.toList.all (fun c => decide (c.toNat < 128)) = true) :
    ∀ c ∈ version.toList, c.toNat < 128 :=
  fun c hc => of_decide_eq_true (List.all_eq_true.1 h c hc)

/-- A version that has a counter already. -/
theorem preview_eq_assigned_of_counted :
    let settings : Settings := { source := .disabled, padding := 3 }
    let version := "5.3.7.Final-redhat-00099"
    settings.validate = .ok () ∧ (∀ c ∈ version.toList, c.toNat < 128) ∧ ¬ Marked version ∧
      preview version "redhat" 3 = .ok "5.3.7.Final-redhat-100" ∧
      ProjectVersionSettings.compute? { suffix := "redhat", padding := 3 } none version
        = some "5.3.7.Final-redhat-100" := by
  intro settings version
  have valid : settings.validate = .ok () := by decide
  have hascii : ∀ c ∈ version.toList, c.toNat < 128 := toNat_lt_of_all (by decide)
  have hbare : ¬ Marked version := (marked_iff_ne (by decide)).not.2 (not_not_intro rfl)
  obtain ⟨next, assigned, hnext, hassigned, -, hagree⟩ := preview_eq_assigned_iff valid hascii
  have hpreview : preview version "redhat" 3 = .ok "5.3.7.Final-redhat-100" := by decide
  obtain rfl : "5.3.7.Final-redhat-100" = next := Except.ok.inj (hpreview.symm.trans hnext)
  rw [← hagree.2 hbare] at hassigned
  exact ⟨valid, hascii, hbare, hpreview, hassigned⟩

/-- A preview keeps the snapshot marker that an alignment takes off. -/
theorem preview_ne_assigned_of_snapshot :
    Settings.validate { source := .disabled } = .ok () ∧
      (∀ c ∈ "1.0-SNAPSHOT".toList, c.toNat < 128) ∧
      preview "1.0-SNAPSHOT" "redhat" 5 = .ok "1.0-SNAPSHOT-redhat-00001" ∧
      ProjectVersionSettings.compute? { suffix := "redhat", padding := 5 } none "1.0-SNAPSHOT"
        = some "1.0-redhat-00001" :=
  ⟨by decide, toNat_lt_of_all (by decide), by decide, by decide⟩

end BuildAlignment.Version
