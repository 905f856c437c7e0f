import BuildAlignment.Proofs.Version.Cut
import BuildAlignment.Proofs.Version.Suffix

/-!
# Snapshot markers

A version under development ends in a marker: a hyphen or a dot, and the word for it in any ASCII
case. Its release is what stands before the marker.

* `Version.SnapshotOf` relates a release and a version under development, and `Version.Marked` holds
  of the versions that have a release in this sense.
* `Version.stripSnapshot?_eq_some_iff`: a marker is taken off, and a version without one is kept.
-/

namespace BuildAlignment.Version

open Text (isDigit)

/-- The version is the release with a snapshot marker behind it. -/
def SnapshotOf (release version : String) : Prop :=
  ∃ separator marker, (separator = '-' ∨ separator = '.') ∧
    marker.map Text.asciiLowerChar = snapshot.toList ∧
      version.toList = release.toList ++ separator :: marker

/-- The version has a snapshot marker at its end. -/
def Marked (version : String) : Prop := ∃ release, SnapshotOf release version

variable {release version : String}

theorem utf8Size_of_toNat_lt {c : Char} (h : c.toNat < 128) : c.utf8Size = 1 :=
  Char.utf8Size_eq_one_iff.2 (UInt32.le_iff_toNat_le.2 (Nat.le_of_lt_succ h))

theorem utf8Size_asciiLowerChar (c : Char) : (Text.asciiLowerChar c).utf8Size = c.utf8Size := by
  rw [Text.asciiLowerChar]
  split
  · rename_i hupper
    have hbelow : c.toNat ≤ 90 := hupper.2
    have hfolded : (Char.ofNat (c.toNat + 32)).toNat = c.toNat + 32 := by
      rw [Char.ofNat, dif_pos (.inl (by omega))]
      rfl
    rw [utf8Size_of_toNat_lt (by omega), utf8Size_of_toNat_lt (by omega)]
  · rfl

theorem byteSize_map_asciiLowerChar (cs : List Char) :
    Text.byteSize (cs.map Text.asciiLowerChar) = Text.byteSize cs := by
  induction cs with
  | nil => rfl
  | cons c rest ih => rw [List.map_cons, Text.byteSize, utf8Size_asciiLowerChar, ih, Text.byteSize]

theorem byteSize_marker {marker : List Char}
    (h : marker.map Text.asciiLowerChar = snapshot.toList) :
    Text.byteSize marker = snapshot.length := by
  rw [← byteSize_map_asciiLowerChar, h]
  decide

/-- A version with a marker is cut before its word. -/
theorem SnapshotOf.cut (h : SnapshotOf release version) :
    ¬ Text.byteSize version.toList ≤ snapshot.length ∧
      ∃ separator marker, (separator = '-' ∨ separator = '.') ∧
        marker.map Text.asciiLowerChar = snapshot.toList ∧
          Text.cutTail? snapshot.length version.toList
            = some (release.toList ++ [separator], marker) := by
  obtain ⟨separator, marker, hseparator, hmarker, hversion⟩ := h
  have hsize := byteSize_marker hmarker
  rw [List.append_cons] at hversion
  refine ⟨?_, separator, marker, hseparator, hmarker, ?_⟩
  · have hpositive := separator.utf8Size_pos
    rw [hversion, Text.byteSize_append, Text.byteSize_append, hsize]
    simp only [Text.byteSize]
    omega
  · rw [hversion, ← hsize, Text.cutTail?_append]

/-- What is left of a version without its marker. -/
theorem stripSnapshot?_of_snapshotOf (h : SnapshotOf release version) :
    stripSnapshot? version = some release := by
  obtain ⟨hlong, separator, marker, hseparator, hmarker, hcut⟩ := h.cut
  rw [stripSnapshot?, if_neg hlong, hcut]
  dsimp only
  rw [if_pos hmarker, List.getLast?_concat, List.dropLast_concat, String.ofList_toList]
  rcases hseparator with rfl | rfl
  · rfl
  · rfl

/-- What is left of a version is its release, or the version itself. -/
theorem of_stripSnapshot?_eq_some (h : stripSnapshot? version = some release) :
    SnapshotOf release version ∨ release = version := by
  rw [stripSnapshot?] at h
  split at h
  · exact .inr (Option.some.inj h).symm
  · cases hcut : Text.cutTail? snapshot.length version.toList with
    | none => rw [hcut] at h; cases h
    | some parts =>
      obtain ⟨head, tail⟩ := parts
      obtain ⟨happend, -⟩ := Text.cutTail?_eq_some hcut
      rw [hcut] at h
      dsimp only at h
      split at h
      · rename_i hmarker
        have hmarked : ∀ separator, (separator = '-' ∨ separator = '.') →
            head.getLast? = some separator → some (String.ofList head.dropLast) = some release →
              SnapshotOf release version := by
          intro separator hseparator hlast hrelease
          obtain ⟨front, rfl⟩ := List.getLast?_eq_some_iff.1 hlast
          refine ⟨separator, tail, hseparator, hmarker, ?_⟩
          rw [← Option.some.inj hrelease, String.toList_ofList, List.dropLast_concat, ← happend,
            List.append_cons front separator tail]
        split at h
        · exact .inl (hmarked '-' (.inl rfl) ‹_› h)
        · exact .inl (hmarked '.' (.inr rfl) ‹_› h)
        · exact .inr (Option.some.inj h).symm
      · exact .inr (Option.some.inj h).symm

/-- A marker is taken off, and a version that has none is kept, if it can be cut at all. -/
theorem stripSnapshot?_eq_some_iff : stripSnapshot? version = some release ↔
    SnapshotOf release version ∨ ¬ Marked version ∧ Cuttable version ∧ release = version := by
  constructor
  · intro h
    by_cases hmarked : Marked version
    · obtain ⟨other, hother⟩ := hmarked
      have hsame := stripSnapshot?_of_snapshotOf hother
      rw [h, Option.some.injEq] at hsame
      exact .inl (hsame ▸ hother)
    · refine .inr ⟨hmarked, Option.isSome_iff_exists.2 ⟨release, h⟩, ?_⟩
      exact (of_stripSnapshot?_eq_some h).resolve_left fun hof => hmarked ⟨release, hof⟩
  · rintro (h | ⟨hmarked, hcuttable, rfl⟩)
    · exact stripSnapshot?_of_snapshotOf h
    · obtain ⟨other, hother⟩ := Option.isSome_iff_exists.1 hcuttable
      rcases of_stripSnapshot?_eq_some hother with hof | rfl
      · exact absurd ⟨other, hof⟩ hmarked
      · exact hother

/-- A version has a marker exactly when taking it off changes the version. -/
theorem marked_iff_ne (h : stripSnapshot? version = some release) :
    Marked version ↔ release ≠ version := by
  constructor
  · rintro ⟨other, hother⟩
    have hsame := stripSnapshot?_of_snapshotOf hother
    rw [h, Option.some.injEq] at hsame
    obtain ⟨separator, marker, -, -, hversion⟩ := hother
    rintro rfl
    rw [hsame, List.self_eq_append_right] at hversion
    cases hversion
  · intro hne
    exact ⟨release, (of_stripSnapshot?_eq_some h).resolve_right hne⟩

theorem not_marked_of_digit {front : List Char} {d : Char} (hdigit : isDigit d = true)
    (hlast : version.toList = front ++ [d]) : ¬ Marked version := by
  rintro ⟨release, separator, marker, -, hmarker, hversion⟩
  -- The last character of the marker is a letter, and `d` stands in its place.
  have hne : marker ≠ [] := by
    rintro rfl
    revert hmarker
    decide
  have hd : marker.getLast? = some d := by
    rw [← List.getLast?_append_of_ne_nil (release.toList ++ [separator]) hne, ← List.append_cons,
      ← hversion, hlast, List.getLast?_concat]
  have hfolded : (marker.map Text.asciiLowerChar).getLast? = some 't' := by
    rw [hmarker]
    decide
  have hsame : Text.asciiLowerChar d = d := by
    have hrange := isDigit_iff.1 hdigit
    refine if_neg fun hupper => ?_
    have hA : 65 ≤ d.toNat := hupper.1
    omega
  rw [List.getLast?_map, hd, Option.map_some, hsame, Option.some.injEq] at hfolded
  rw [hfolded] at hdigit
  exact absurd hdigit (by decide)

theorem Counted.not_marked {suffix base : String} {number : Nat}
    (h : Counted suffix base "" number version) : ¬ Marked version := by
  obtain ⟨counter, hversion, hdigits, hne, -⟩ := h.toList_eq
  obtain ⟨front, last, rfl⟩ := (List.eq_nil_or_concat' counter).resolve_left hne
  have hends : version.toList = (base.toList ++ '-' :: (suffix.toList ++ '-' :: front)) ++ [last] := by
    rw [hversion]
    simp
  exact not_marked_of_digit (hdigits last (List.mem_append_right _ (List.mem_singleton_self _))) hends

/-- Cutting a snapshot marker off adds nothing. -/
theorem mem_of_stripSnapshot? (h : stripSnapshot? version = some release) {c : Char}
    (hc : c ∈ release.toList) : c ∈ version.toList := by
  rcases of_stripSnapshot?_eq_some h with ⟨separator, marker, -, -, hversion⟩ | rfl
  · rw [hversion]
    exact List.mem_append_left _ hc
  · exact hc

theorem snapshotOf_append (release : String) : SnapshotOf release (release ++ "-SNAPSHOT") := by
  refine ⟨'-', "SNAPSHOT".toList, .inl rfl, by decide, ?_⟩
  have hmarker : "-SNAPSHOT".toList = '-' :: "SNAPSHOT".toList := by decide
  rw [String.toList_append, hmarker]

example : stripSnapshot? "1.0.Snapshot" = some "1.0" := by decide

end BuildAlignment.Version
