import BuildAlignment.ModuleTree
import BuildAlignment.Proofs.Sequence
import BuildAlignment.Proofs.Text.Fields
import BuildAlignment.Proofs.Text.Spelling

/-!
# Coordinates that are read back

* `Coordinate.Separable` holds of coordinates whose text form keeps the fields apart, and
  `Coordinate.Legible` of those whose text form has no blank characters at its ends either.
* `Coordinate.parse_display_iff`: the legible coordinates are those that are read back from their
  text form. By `Coordinate.legible_of_parse` whatever was read with a version is among them.
* `Version.Closes` holds of versions that can stand at the end of a text form. By
  `Coordinate.legible_withVersion_iff` a legible coordinate stays legible with these versions and
  with no others.
* `Coordinate.Separable.display_inj`: separable coordinates are told apart by their text forms, so
  by `Coordinate.Separable.aligned?_insertAligned` replacements of different dependencies do not get
  in each other's way. `Coordinate.display_faithful` is all of this.
-/

namespace BuildAlignment

/-- A version that can stand at the end of a text form: it is not empty, holds no colon and does not
end in a blank character. -/
structure Version.Closes (version : String) : Prop where
  nonempty : version ≠ ""
  uncut : ':' ∉ version.toList
  trimmed : ∀ c ∈ version.toList.getLast?, Text.isBlankChar c = false

namespace Coordinate

/-- No field holds a colon, and there is an artifact. -/
structure Separable (coordinate : Coordinate) : Prop where
  group : ':' ∉ coordinate.group.toList
  artifact : ':' ∉ coordinate.artifact.toList
  version : ':' ∉ coordinate.version.toList
  named : coordinate.artifact ≠ ""

/-- The text form keeps the fields apart, and nothing is cut off its ends. -/
structure Legible (coordinate : Coordinate) : Prop extends Separable coordinate where
  trimmed : Text.trim coordinate.display = coordinate.display

/-- The fields of a coordinate that its text form shows. -/
def shown (coordinate : Coordinate) : List String :=
  if coordinate.version = "" then [coordinate.group, coordinate.artifact]
  else [coordinate.group, coordinate.artifact, coordinate.version]

theorem fields_display {coordinate : Coordinate} (h : coordinate.Separable) :
    Text.fields ':' coordinate.display = coordinate.shown := by
  have hcolon : ":".toList = [':'] := by decide
  rw [shown, display, ArtifactRef.display]
  split
  · refine Text.fields_eq_of_toList ?_ (List.cons_ne_nil _ _) ?_
    · simpa using ⟨h.group, h.artifact⟩
    · simp [ref, hcolon]
  · refine Text.fields_eq_of_toList ?_ (List.cons_ne_nil _ _) ?_
    · simpa using ⟨h.group, h.artifact, h.version⟩
    · simp [ref, hcolon]

theorem parse_display {coordinate : Coordinate} (h : coordinate.Legible) :
    parse coordinate.display = .ok coordinate := by
  rw [parse, h.trimmed, fields_display h.toSeparable, shown]
  obtain ⟨group, artifact, version⟩ := coordinate
  have hnamed : artifact ≠ "" := h.named
  by_cases hversion : version = ""
  · simp [hversion, hnamed]
  · simp [hversion, hnamed]

/-- What is known of a coordinate that was read: its fields, and the text they were read from. -/
theorem of_parse_eq_ok {text : String} {coordinate : Coordinate} (h : parse text = .ok coordinate) :
    coordinate.Separable ∧ (Text.trim text = coordinate.display ∨
      coordinate.version = "" ∧ Text.trim text = coordinate.display ++ ":") := by
  have hfree : ∀ field ∈ Text.fields ':' (Text.trim text), ':' ∉ field.toList :=
    fun _ hfield => Text.not_mem_of_mem_fields hfield
  have hjoined := Text.intercalate_fields ':' (Text.trim text)
  rw [parse] at h
  split at h
  · rename_i group artifact hfields
    rw [hfields] at hfree hjoined
    by_cases hnamed : artifact = ""
    · simp [hnamed] at h
    · simp only [hnamed, if_false] at h
      cases h
      refine ⟨⟨hfree group (by simp), hfree artifact (by simp), by simp, hnamed⟩, .inl ?_⟩
      rw [← hjoined, display, if_pos rfl]
      rfl
  · rename_i group artifact version hfields
    rw [hfields] at hfree hjoined
    by_cases hnamed : artifact = ""
    · simp [hnamed] at h
    · simp only [hnamed, if_false] at h
      cases h
      refine ⟨⟨hfree group (by simp), hfree artifact (by simp), hfree version (by simp), hnamed⟩, ?_⟩
      by_cases hversion : version = ""
      · refine .inr ⟨hversion, ?_⟩
        rw [← hjoined, display, if_pos hversion, hversion]
        exact String.append_empty
      · refine .inl ?_
        rw [← hjoined, display, if_neg hversion]
        rfl
  · cases h

theorem legible_of_parse {text : String} {coordinate : Coordinate}
    (h : parse text = .ok coordinate) (hversion : coordinate.version ≠ "") : coordinate.Legible := by
  obtain ⟨hseparable, hdisplay | ⟨hempty, -⟩⟩ := of_parse_eq_ok h
  · exact ⟨hseparable, by rw [← hdisplay, Text.trim_trim]⟩
  · exact absurd hempty hversion

theorem parse_display_iff {coordinate : Coordinate} :
    parse coordinate.display = .ok coordinate ↔ coordinate.Legible := by
  refine ⟨?_, parse_display⟩
  intro h
  obtain ⟨hseparable, hdisplay | ⟨-, hdisplay⟩⟩ := of_parse_eq_ok h
  · exact ⟨hseparable, hdisplay⟩
  · have hlength := Text.length_trimChars_le coordinate.display.toList
    rw [← Text.toList_trim, hdisplay, String.toList_append, List.length_append] at hlength
    exact absurd hlength (by simp)

/-! ### Other versions -/

theorem toList_display_withVersion (coordinate : Coordinate) {version : String}
    (h : version ≠ "") : (coordinate.withVersion version).display.toList
      = coordinate.group.toList ++ ':' :: (coordinate.artifact.toList ++ ':' :: version.toList) := by
  have hcolon : ":".toList = [':'] := by decide
  rw [display, withVersion, if_neg h]
  simp [ref, ArtifactRef.display, hcolon]

theorem head?_display (coordinate : Coordinate) :
    coordinate.display.toList.head? = coordinate.group.toList.head?.or (some ':') := by
  have hcolon : ":".toList = [':'] := by decide
  rw [display]
  split
  · simp [ref, ArtifactRef.display, hcolon]
  · simp [ref, ArtifactRef.display, hcolon]

/-- A legible coordinate stays so with the versions that can stand at the end, and with no others. -/
theorem legible_withVersion_iff {coordinate : Coordinate} (h : coordinate.Legible)
    {version : String} (hversion : version ≠ "") :
    (coordinate.withVersion version).Legible ↔ Version.Closes version := by
  have hlast : (coordinate.withVersion version).display.toList.getLast?
      = version.toList.getLast? := by
    have hne : version.toList ≠ [] := by simpa using hversion
    have hsplit : (coordinate.withVersion version).display.toList
        = (coordinate.group.toList ++ ':' :: (coordinate.artifact.toList ++ [':']))
            ++ version.toList := by
      rw [toList_display_withVersion coordinate hversion]
      simp
    rw [hsplit, List.getLast?_append_of_ne_nil _ hne]
  obtain ⟨hfirst, -⟩ := Text.trim_eq_self_iff.1 h.trimmed
  rw [head?_display] at hfirst
  constructor
  · intro hlegible
    obtain ⟨-, hend⟩ := Text.trim_eq_self_iff.1 hlegible.trimmed
    rw [hlast] at hend
    exact ⟨hversion, hlegible.version, hend⟩
  · intro closes
    refine ⟨⟨h.group, h.artifact, closes.uncut, h.named⟩, Text.trim_eq_self_iff.2 ⟨?_, ?_⟩⟩
    · rw [head?_display]
      exact hfirst
    · rw [hlast]
      exact closes.trimmed

/-! ### Keys of replacements -/

theorem shown_inj {first second : Coordinate} (h : first.shown = second.shown) :
    first = second := by
  obtain ⟨group, artifact, version⟩ := first
  obtain ⟨group', artifact', version'⟩ := second
  by_cases hversion : version = "" <;> by_cases hversion' : version' = "" <;>
    simp_all [shown]

theorem Separable.display_inj {first second : Coordinate} (hfirst : first.Separable)
    (hsecond : second.Separable) (h : first.display = second.display) : first = second := by
  apply shown_inj
  rw [← fields_display hfirst, h, fields_display hsecond]

/-- A replacement is seen under the dependency that it is for, and under no other. -/
theorem Separable.aligned?_insertAligned {declared other : Coordinate}
    (hdeclared : declared.Separable) (hother : other.Separable) (info : ModuleInfo)
    (replacement : Coordinate) :
    (info.insertAligned declared replacement).aligned? other.display
      = if declared = other then some replacement else info.aligned? other.display := by
  rw [ModuleInfo.insertAligned, ModuleInfo.aligned?, Keyed.find?_insert]
  by_cases hsame : declared = other
  · rw [if_pos hsame, if_pos (congrArg display hsame)]
  · rw [if_neg hsame, if_neg fun h => hsame (hdeclared.display_inj hother h)]
    rfl

/-- Of replacements that are set in turn, the last one for a dependency is seen under it. -/
theorem Separable.aligned?_foldl_insertAligned {other : Coordinate} (hother : other.Separable)
    (info : ModuleInfo) {given : List (Coordinate × Coordinate)}
    (hgiven : ∀ entry ∈ given, entry.1.Separable) :
    (given.foldl (fun known entry => known.insertAligned entry.1 entry.2) info).aligned?
        other.display
      = ((given.reverse.find? fun entry => entry.1 = other).map Prod.snd).or
          (info.aligned? other.display) := by
  refine seen_foldl (fun known : ModuleInfo => known.aligned? other.display)
    (fun entry hentry known => ?_) info
  rw [(hgiven entry hentry).aligned?_insertAligned hother]
  simp

/-- A coordinate is what is read from its text form exactly if its fields hold no colon, it has an
artifact, and the text form neither begins nor ends in a blank character. Where the fields hold no
colon and there is an artifact, the text form alone tells coordinates apart, and replacements that
are set in turn are each found under their own dependency. -/
theorem display_faithful :
    (∀ coordinate : Coordinate, parse coordinate.display = .ok coordinate ↔
      (':' ∉ coordinate.group.toList ∧ ':' ∉ coordinate.artifact.toList ∧
        ':' ∉ coordinate.version.toList) ∧ coordinate.artifact ≠ "" ∧
      (∀ c ∈ coordinate.display.toList.head?, Text.isBlankChar c = false) ∧
      ∀ c ∈ coordinate.display.toList.getLast?, Text.isBlankChar c = false) ∧
    (∀ first second : Coordinate, first.Separable → second.Separable →
      first.display = second.display → first = second) ∧
    ∀ (info : ModuleInfo) (given : List (Coordinate × Coordinate)),
      (∀ entry ∈ given, entry.1.Separable) → ∀ declared : Coordinate, declared.Separable →
      (given.foldl (fun known entry => known.insertAligned entry.1 entry.2) info).aligned?
          declared.display
        = ((given.reverse.find? fun entry => entry.1 = declared).map Prod.snd).or
            (info.aligned? declared.display) := by
  refine ⟨fun coordinate => ?_, fun first second hfirst hsecond => hfirst.display_inj hsecond,
    fun info given hgiven declared hdeclared => hdeclared.aligned?_foldl_insertAligned info hgiven⟩
  rw [parse_display_iff]
  constructor
  · intro h
    exact ⟨⟨h.group, h.artifact, h.version⟩, h.named, Text.trim_eq_self_iff.1 h.trimmed⟩
  · rintro ⟨⟨hgroup, hartifact, hversion⟩, hnamed, hends⟩
    exact ⟨⟨hgroup, hartifact, hversion, hnamed⟩, Text.trim_eq_self_iff.2 hends⟩

/-- Dependencies that differ in the version only, of which one has none, and one in another group
that begins with a blank character. -/
theorem display_faithful_of_versions :
    let bare : Coordinate := ⟨"g", "a", ""⟩
    let exact : Coordinate := ⟨"g", "a", "1.0"⟩
    let spaced : Coordinate := ⟨" g", "a", "1.0"⟩
    let info := (((ModuleInfo.new "app" "g").insertAligned bare ⟨"g", "a", "2"⟩).insertAligned exact
      ⟨"g", "a", "3"⟩).insertAligned bare ⟨"g", "a", "4"⟩
    bare.Separable ∧ exact.Separable ∧ spaced.Separable ∧ bare.display ≠ exact.display ∧
      parse bare.display = .ok bare ∧ parse spaced.display ≠ .ok spaced ∧
      info.aligned? bare.display = some ⟨"g", "a", "4"⟩ ∧
      info.aligned? exact.display = some ⟨"g", "a", "3"⟩ ∧ info.aligned? spaced.display = none := by
  intro bare exact spaced info
  have hbare : bare.Separable := ⟨by decide, by decide, by decide, by decide⟩
  have hexact : exact.Separable := ⟨by decide, by decide, by decide, by decide⟩
  have hspaced : spaced.Separable := ⟨by decide, by decide, by decide, by decide⟩
  obtain ⟨hparse, hinj, hfound⟩ := display_faithful
  have hgiven : ∀ entry ∈ [(bare, (⟨"g", "a", "2"⟩ : Coordinate)), (exact, ⟨"g", "a", "3"⟩),
      (bare, ⟨"g", "a", "4"⟩)], entry.1.Separable := by
    simpa using ⟨hbare, hexact, hbare⟩
  have hseen := hfound (.new "app" "g") _ hgiven
  have htrim : Text.trim bare.display = bare.display := by decide
  have hread : parse bare.display = .ok bare := (hparse bare).2
    ⟨⟨hbare.group, hbare.artifact, hbare.version⟩, hbare.named, Text.trim_eq_self_iff.1 htrim⟩
  refine ⟨hbare, hexact, hspaced, fun h => ?_, hread, fun h => ?_, hseen bare hbare,
    hseen exact hexact, hseen spaced hspaced⟩
  · exact absurd (hinj bare exact hbare hexact h) (by decide)
  · obtain ⟨-, -, hfirst, -⟩ := (hparse spaced).1 h
    rw [head?_display] at hfirst
    exact absurd (hfirst ' ' (by decide)) (by decide)

end Coordinate

end BuildAlignment
