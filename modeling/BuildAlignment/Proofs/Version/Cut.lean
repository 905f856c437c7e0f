import BuildAlignment.Alignment.ProjectVersion

/-!
# Versions that can be cut

A snapshot marker is looked for in the last eight bytes of a version. A version in which these begin
inside a character can be neither cut nor kept.

* `Version.Cuttable` holds of the versions that can be cut. By `Version.cuttable_of_ascii` these are
  at least those of ASCII characters.
* `ProjectVersionSettings.isSome_compute?_iff`: when the version of a build can be counted on.
-/

namespace BuildAlignment

namespace Text

/-- A cut between two characters gives the parts before and behind it. -/
theorem cutTail?_append (head tail : List Char) :
    cutTail? (byteSize tail) (head ++ tail) = some (head, tail) := by
  induction head with
  | nil =>
    cases tail with
    | nil => rfl
    | cons c rest => rw [List.nil_append, cutTail?, if_pos rfl]
  | cons c rest ih =>
    have hlonger : byteSize tail < byteSize (c :: (rest ++ tail)) := by
      have hpositive := c.utf8Size_pos
      rw [byteSize, byteSize_append]
      omega
    rw [List.cons_append, cutTail?, if_neg (by omega), if_neg (by omega), ih]
    rfl

/-- A text can be cut where a character begins, and at its end. -/
theorem isSome_cutTail?_iff {size : Nat} {cs : List Char} : (cutTail? size cs).isSome = true ↔
    ∃ head tail, head ++ tail = cs ∧ byteSize tail = size := by
  constructor
  · intro hcut
    obtain ⟨parts, hparts⟩ := Option.isSome_iff_exists.1 hcut
    exact ⟨parts.1, parts.2, cutTail?_eq_some hparts⟩
  · intro hparts
    obtain ⟨head, tail, rfl, rfl⟩ := hparts
    rw [cutTail?_append]
    rfl

theorem byteSize_of_ascii {cs : List Char} (h : ∀ c ∈ cs, c.utf8Size = 1) :
    byteSize cs = cs.length := by
  induction cs with
  | nil => rfl
  | cons c rest ih =>
    rw [byteSize, h c List.mem_cons_self,
      ih fun other hother => h other (List.mem_cons_of_mem _ hother), List.length_cons,
      Nat.add_comm]

end Text

namespace Version

/-- The last eight bytes of the version, if it has more, do not begin inside a character. -/
def Cuttable (version : String) : Prop := (stripSnapshot? version).isSome = true

instance (version : String) : Decidable (Cuttable version) :=
  inferInstanceAs (Decidable (_ = true))

/-- A version can be cut when it is short, or when its last eight bytes are characters. -/
theorem cuttable_iff {version : String} : Cuttable version ↔
    Text.byteSize version.toList ≤ snapshot.length ∨
      ∃ head tail, head ++ tail = version.toList ∧ Text.byteSize tail = snapshot.length := by
  rw [Cuttable, stripSnapshot?, ← Text.isSome_cutTail?_iff]
  by_cases hshort : Text.byteSize version.toList ≤ snapshot.length
  · simp [hshort]
  · rw [if_neg hshort, or_iff_right hshort]
    cases Text.cutTail? snapshot.length version.toList with
    | none => simp
    | some parts =>
      simp only [Option.isSome_some, iff_true]
      split
      · split <;> rfl
      · rfl

/-- Where every character is one byte, every version can be cut. -/
theorem cuttable_of_ascii {version : String} (h : ∀ c ∈ version.toList, c.utf8Size = 1) :
    Cuttable version := by
  rw [cuttable_iff, Text.byteSize_of_ascii h]
  rcases Nat.le_total version.toList.length snapshot.length with hshort | hlong
  · exact .inl hshort
  · refine .inr ⟨_, _, List.take_append_drop (version.toList.length - snapshot.length) _, ?_⟩
    rw [Text.byteSize_of_ascii fun c hc => h c (List.mem_of_mem_drop hc), List.length_drop]
    omega

example : ¬ Cuttable "éaaaaaaa" := by decide

end Version

namespace ProjectVersionSettings

/-- A change that counts needs a version to start from that can be cut, a previous one that can be
cut if there is one, and a width that can be written. A change that does not count needs nothing. -/
theorem isSome_compute?_iff {settings : ProjectVersionSettings} {authority : Option String}
    {declared : String} : (settings.compute? authority declared).isSome = true ↔
      (settings.enabled = true → settings.versionOverride = none →
        Version.Cuttable (authority.getD declared) ∧
        (∀ previous ∈ settings.previousVersion, Version.Cuttable previous) ∧
        settings.padding ≤ Version.widestPadding) := by
  rw [compute?]
  cases henabled : settings.enabled with
  | false => simp
  | true =>
    cases hoverride : settings.versionOverride with
    | some version => simp
    | none =>
      have hcount : ∀ input release candidates,
          (settings.countOn? input release candidates).isSome = true
            ↔ settings.padding ≤ Version.widestPadding := by
        intro input release candidates
        rw [countOn?, Option.isSome_map, Version.isSome_nextVersion?, decide_eq_true_iff]
      simp only [Bool.not_true, Bool.false_eq_true, if_false, forall_const, Version.Cuttable]
      cases Version.stripSnapshot? (authority.getD declared) with
      | none => simp
      | some release =>
        cases hprevious : settings.previousVersion with
        | none => simp [hcount]
        | some previous =>
          cases hcut : Version.stripSnapshot? previous with
          | none => simp [hcut]
          | some earlier => simp [hcut, hcount]

end ProjectVersionSettings

end BuildAlignment
