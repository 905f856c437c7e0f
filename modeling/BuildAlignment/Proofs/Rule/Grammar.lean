import BuildAlignment.Proofs.Text.Fields
import BuildAlignment.Rule
import Mathlib.Data.List.Forall2
import Mathlib.Data.List.Nodup

/-!
# The grammar of rule keys

A rule key is a dependency and its owner with one `@` between them, and both are cut into segments.
The grammar is said here on its own, and reading a key is compared with it.

* `Rule.Grammatical` holds of the keys that are rules.
* `Violation` lists the ways in which a key of two halves can break the grammar,
  `Violation.Occurs` says when it does so, and `RuleProblem.Tells` which problem speaks about it.
* `Rule.Accounts`: the problems in a list and the violations at some places correspond one to one.
  By `Rule.accounts_problems` this is so for the problems of a key.
* `Rule.parse_grammar`: the grammatical keys are read as what they say, and every other key gives an
  error that accounts for all that is wrong with it.
-/

namespace BuildAlignment

/-! ### Keys that are rules -/

/-- A text that may stand for a segment: the lone wildcard, or characters among which there is no
wildcard and no blank. -/
def Segment.Allowed (text : String) : Prop :=
  text = "*" ∨ text ≠ "" ∧ '*' ∉ text.toList ∧ ∀ c ∈ text.toList, Text.isBlankChar c = false

/-- The segment that is read from a place of a key. A place that is left out is a wildcard. -/
def Segment.ReadFrom (segment : Segment) : Option String → Prop
  | none => segment = .wildcard
  | some text => (segment = .wildcard ↔ text = "*") ∧ (text ≠ "*" → segment = .literal text)

/-- The owner that is read from its segments. -/
def OwnerPattern.ReadFrom (owner : OwnerPattern) (texts : List String) : Prop :=
  (owner = .any ↔ texts = ["*"]) ∧
    ∀ group artifact, owner = .owner group artifact →
      group.ReadFrom texts[0]? ∧ artifact.ReadFrom texts[1]?

namespace Rule

/-- A key of two halves, and the segments that these are cut into. -/
def Segmented (key : String) (dependency owner : List String) : Prop :=
  ∃ left right, Text.Cut '@' key [left, right] ∧ Text.Cut ':' left dependency ∧
    Text.Cut ':' right owner

/-- Segments as the grammar wants them: one to three for the dependency, two for the owner unless it
is the lone wildcard, and each of them allowed. -/
structure WellFormed (dependency owner : List String) : Prop where
  some : 1 ≤ dependency.length
  few : dependency.length ≤ 3
  shape : owner = ["*"] ∨ owner.length = 2
  allowed : ∀ text ∈ dependency ++ owner, Segment.Allowed text

/-- The keys that are rules. -/
def Grammatical (key : String) : Prop :=
  ∃ dependency owner, Segmented key dependency owner ∧ WellFormed dependency owner

/-- The rule that is read from the segments of a key. -/
structure ReadFrom (rule : Rule) (dependency owner : List String) : Prop where
  group : rule.pattern.group.ReadFrom dependency[0]?
  artifact : rule.pattern.artifact.ReadFrom dependency[1]?
  version : rule.pattern.version.ReadFrom dependency[2]?
  owner : rule.owner.ReadFrom owner

end Rule

/-! ### What can be wrong with a key of two halves -/

/-- The text at a place of a key. -/
def Slot.textIn (dependency owner : List String) : Slot → Option String
  | .group => dependency[0]?
  | .artifact => dependency[1]?
  | .version => dependency[2]?
  | .ownerGroup => owner[0]?
  | .ownerArtifact => owner[1]?

/-- The ways to break the grammar. -/
inductive Violation where
  /-- The dependency has too many segments. -/
  | surplus
  /-- The owner is neither the lone wildcard nor two segments. -/
  | shape
  /-- The text at a place is not allowed. -/
  | segment (slot : Slot)
  deriving DecidableEq, Repr

/-- Whether a key breaks the grammar in some way. -/
def Violation.Occurs (dependency owner : List String) : Violation → Prop
  | surplus => 3 < dependency.length
  | shape => owner ≠ ["*"] ∧ owner.length ≠ 2
  | segment slot => ∃ text, slot.textIn dependency owner = some text ∧ ¬ Segment.Allowed text

/-- A problem tells a violation: it names the place, and what it says of the text there is true. -/
inductive RuleProblem.Tells (dependency owner : List String) : RuleProblem → Violation → Prop
  | surplus : Tells dependency owner
      (.tooManySegments (String.intercalate ":" dependency) dependency.length) .surplus
  | shape : Tells dependency owner (.ownerShape (String.intercalate ":" owner)) .shape
  | empty {slot : Slot} (found : slot.textIn dependency owner = some "") :
      Tells dependency owner (.emptySegment slot) (.segment slot)
  | mixed {slot : Slot} {text : String} (found : slot.textIn dependency owner = some text)
      (star : '*' ∈ text.toList) : Tells dependency owner (.mixedSegment slot text) (.segment slot)
  | blank {slot : Slot} {text : String} (found : slot.textIn dependency owner = some text)
      (plain : '*' ∉ text.toList) (blank : ∃ c ∈ text.toList, Text.isBlankChar c = true) :
      Tells dependency owner (.blankSegment slot text) (.segment slot)

variable {dependency owner : List String}

/-- A text is allowed and has no problem, or is not and has one. -/
theorem Segment.problems_cases (slot : Slot) (text : String) :
    (Allowed text ∧ problems slot text = []) ∨
      (¬ Allowed text ∧ ∃ problem, problems slot text = [problem] ∧
        ∀ dependency owner, slot.textIn dependency owner = some text →
          problem.Tells dependency owner (.segment slot)) := by
  rw [problems]
  by_cases hstar : text = "*"
  · exact .inl ⟨.inl hstar, if_pos hstar⟩
  rw [if_neg hstar]
  by_cases hempty : text = ""
  · subst hempty
    refine .inr ⟨?_, _, if_pos rfl, fun _ _ found => .empty found⟩
    rintro (heq | ⟨hne, -⟩)
    · exact hstar heq
    · exact hne rfl
  rw [if_neg hempty]
  by_cases hmixed : '*' ∈ text.toList
  · refine .inr ⟨?_, _, if_pos (by simpa [Text.contains] using hmixed),
      fun _ _ found => .mixed found hmixed⟩
    rintro (heq | ⟨-, hplain, -⟩)
    · exact hstar heq
    · exact hplain hmixed
  rw [if_neg (by simpa [Text.contains] using hmixed)]
  by_cases hblank : ∃ c ∈ text.toList, Text.isBlankChar c = true
  · refine .inr ⟨?_, _, if_pos (List.any_eq_true.2 hblank),
      fun _ _ found => .blank found hmixed hblank⟩
    rintro (heq | ⟨-, -, hsolid⟩)
    · exact hstar heq
    · obtain ⟨c, hc, htrue⟩ := hblank
      rw [hsolid c hc] at htrue
      cases htrue
  · refine .inl ⟨.inr ⟨hempty, hmixed, ?_⟩, if_neg (fun hany => hblank (List.any_eq_true.1 hany))⟩
    intro c hc
    exact eq_false_of_ne_true fun htrue => hblank ⟨c, hc, htrue⟩

/-- The segment of a place that may be left out. -/
def Segment.ofPlace (place : Option String) : Segment :=
  (place.map ofText).getD .wildcard

theorem Segment.readFrom_ofPlace (place : Option String) : (ofPlace place).ReadFrom place := by
  cases place with
  | none => rfl
  | some text =>
    rw [ofPlace, Option.map_some, Option.getD_some, ofText]
    by_cases hstar : text = "*"
    · exact ⟨by simp [hstar], fun hne => absurd hstar hne⟩
    · exact ⟨by simp [hstar], fun _ => by rw [if_neg hstar]⟩

theorem DependencyPattern.ofText_eq (text : String) :
    ofText text = ⟨.ofPlace (Text.fields ':' text)[0]?, .ofPlace (Text.fields ':' text)[1]?,
      .ofPlace (Text.fields ':' text)[2]?⟩ := by
  simp only [ofText]
  cases (Text.fields ':' text)[0]? <;> cases (Text.fields ':' text)[1]? <;>
    cases (Text.fields ':' text)[2]? <;> rfl

theorem OwnerPattern.ofText_eq {text : String} (h : text ≠ "*") :
    ofText text = .owner (.ofPlace (Text.fields ':' text)[0]?)
      (.ofPlace (Text.fields ':' text)[1]?) := by
  simp only [ofText, if_neg h]
  cases (Text.fields ':' text)[0]? <;> cases (Text.fields ':' text)[1]? <;> rfl

namespace Rule

/-! ### One problem for every violation -/

/-- The problems of a list tell the violations at some places, each of them once. -/
def Accounts (dependency owner : List String) (places : Violation → Prop)
    (problems : List RuleProblem) : Prop :=
  ∃ violations : List Violation, violations.Nodup ∧
    (∀ violation, violation ∈ violations ↔ violation.Occurs dependency owner ∧ places violation) ∧
    List.Forall₂ (RuleProblem.Tells dependency owner) problems violations

theorem Accounts.nil {places : Violation → Prop}
    (h : ∀ violation, places violation → ¬ violation.Occurs dependency owner) :
    Accounts dependency owner places [] := by
  refine ⟨[], List.nodup_nil, fun violation => ?_, .nil⟩
  simp only [List.not_mem_nil, false_iff]
  exact fun ⟨hoccurs, hplace⟩ => h violation hplace hoccurs

theorem Accounts.one {violation : Violation} {problem : RuleProblem}
    (hoccurs : violation.Occurs dependency owner) (htells : problem.Tells dependency owner violation) :
    Accounts dependency owner (· = violation) [problem] := by
  refine ⟨[violation], List.nodup_singleton _, fun other => ?_, .cons htells .nil⟩
  rw [List.mem_singleton]
  exact ⟨fun heq => ⟨heq ▸ hoccurs, heq⟩, fun h => h.2⟩

theorem Accounts.congr {places others : Violation → Prop} {problems : List RuleProblem}
    (h : Accounts dependency owner places problems)
    (hsame : ∀ violation, places violation ↔ others violation) :
    Accounts dependency owner others problems := by
  obtain ⟨violations, hnodup, hmem, htells⟩ := h
  refine ⟨violations, hnodup, fun violation => ?_, htells⟩
  rw [hmem, hsame]

theorem Accounts.append {places others : Violation → Prop} {first second : List RuleProblem}
    (hfirst : Accounts dependency owner places first)
    (hsecond : Accounts dependency owner others second)
    (happart : ∀ violation, places violation → ¬ others violation) :
    Accounts dependency owner (fun violation => places violation ∨ others violation)
      (first ++ second) := by
  obtain ⟨violations, hnodup, hmem, htells⟩ := hfirst
  obtain ⟨violations', hnodup', hmem', htells'⟩ := hsecond
  refine ⟨violations ++ violations', ?_, fun violation => ?_, ?_⟩
  · refine List.nodup_append.2 ⟨hnodup, hnodup', ?_⟩
    rintro violation hleft _ hright rfl
    exact happart violation ((hmem violation).1 hleft).2 ((hmem' violation).1 hright).2
  · rw [List.mem_append, hmem, hmem', ← and_or_left]
  · exact List.rel_append htells htells'

theorem accounts_segment {slot : Slot} {text : String}
    (found : slot.textIn dependency owner = some text) :
    Accounts dependency owner (· = .segment slot) (Segment.problems slot text) := by
  rcases Segment.problems_cases slot text with ⟨hallowed, hnone⟩ | ⟨hnot, problem, hone, htells⟩
  · rw [hnone]
    refine .nil ?_
    rintro violation rfl ⟨other, hother, hbad⟩
    rw [found] at hother
    cases hother
    exact hbad hallowed
  · rw [hone]
    exact .one ⟨text, found, hnot⟩ (htells _ _ found)

/-- The texts at different places are checked one after the other. A place that is left out has no
problem. -/
theorem accounts_segments {slots : List Slot} {texts : List String} (hnodup : slots.Nodup)
    (hplaced : ∀ (index : Nat) (slot : Slot), slots[index]? = some slot →
      slot.textIn dependency owner = texts[index]?) :
    Accounts dependency owner (fun violation => ∃ slot ∈ slots, violation = .segment slot)
      (List.zipWith Segment.problems slots texts).flatten := by
  induction slots generalizing texts with
  | nil => exact .nil fun _ ⟨_, hslot, _⟩ => absurd hslot List.not_mem_nil
  | cons slot rest ih =>
    obtain ⟨hnew, hrest⟩ := List.nodup_cons.1 hnodup
    cases texts with
    | nil =>
      refine .nil ?_
      rintro violation ⟨other, hother, rfl⟩ ⟨text, hfound, -⟩
      obtain ⟨index, hindex⟩ := List.mem_iff_getElem?.1 hother
      rw [hplaced index other hindex] at hfound
      cases hfound
    | cons text others =>
      rw [List.zipWith_cons_cons, List.flatten_cons]
      have hhead := accounts_segment (hplaced 0 slot rfl)
      have htail : Accounts dependency owner
          (fun violation => ∃ other ∈ rest, violation = .segment other)
          (List.zipWith Segment.problems rest others).flatten :=
        ih hrest fun index other hindex => hplaced (index + 1) other hindex
      refine (hhead.append htail ?_).congr fun violation => ?_
      · rintro violation rfl ⟨other, hother, heq⟩
        cases heq
        exact hnew hother
      · simp only [List.mem_cons, exists_eq_or_imp]

theorem joined_eq {text : String} {parts : List String} (h : Text.Cut ':' text parts) :
    String.intercalate ":" parts = text := h.joined

/-- The problems of a dependency tell its number of segments and the first three of them. -/
theorem accounts_dependency {left : String} (hleft : Text.Cut ':' left dependency) :
    Accounts dependency owner
      (fun violation => violation = .surplus ∨
        ∃ slot ∈ [Slot.group, .artifact, .version], violation = .segment slot)
      (DependencyPattern.problems left) := by
  have hsegments : Accounts dependency owner
      (fun violation => ∃ slot ∈ [Slot.group, .artifact, .version], violation = .segment slot)
      (List.zipWith Segment.problems [.group, .artifact, .version] dependency).flatten := by
    refine accounts_segments (by decide) ?_
    intro index slot hslot
    match index with
    | 0 => cases hslot; rfl
    | 1 => cases hslot; rfl
    | 2 => cases hslot; rfl
    | _ + 3 => cases hslot
  rw [DependencyPattern.problems, Text.cut_iff.1 hleft]
  refine Accounts.append ?_ hsegments ?_
  · split
    · rename_i hmany
      have htells : RuleProblem.Tells dependency owner
          (.tooManySegments (String.intercalate ":" dependency) dependency.length) .surplus := .surplus
      rw [joined_eq hleft] at htells
      exact .one hmany htells
    · rename_i hfew
      exact .nil fun violation heq hoccurs => by
        subst heq
        exact hfew hoccurs
  · rintro violation rfl ⟨slot, -, heq⟩
    cases heq

/-- The problems of an owner tell its shape and the first two of its segments. -/
theorem accounts_owner {right : String} (hright : Text.Cut ':' right owner) :
    Accounts dependency owner
      (fun violation => violation = .shape ∨
        ∃ slot ∈ [Slot.ownerGroup, .ownerArtifact], violation = .segment slot)
      (OwnerPattern.problems right) := by
  have hlone : right = "*" ↔ owner = ["*"] := by
    constructor
    · rintro rfl
      exact (Text.cut_iff.1 hright).symm.trans (by decide)
    · rintro rfl
      rw [← joined_eq hright, String.intercalate_singleton]
  rw [OwnerPattern.problems]
  by_cases hany : right = "*"
  · rw [if_pos hany]
    have howner := hlone.1 hany
    refine .nil ?_
    rintro violation (rfl | ⟨slot, hslot, rfl⟩) hoccurs
    · exact hoccurs.1 howner
    · obtain ⟨text, hfound, hbad⟩ := hoccurs
      rcases List.mem_cons.1 hslot with rfl | hslot
      · rw [Slot.textIn, howner] at hfound
        cases hfound
        exact hbad (.inl rfl)
      · rw [List.mem_singleton.1 hslot, Slot.textIn, howner] at hfound
        cases hfound
  · have hsegments : Accounts dependency owner
        (fun violation => ∃ slot ∈ [Slot.ownerGroup, .ownerArtifact], violation = .segment slot)
        (List.zipWith Segment.problems [.ownerGroup, .ownerArtifact] owner).flatten := by
      refine accounts_segments (by decide) ?_
      intro index slot hslot
      match index with
      | 0 => cases hslot; rfl
      | 1 => cases hslot; rfl
      | _ + 2 => cases hslot
    simp only [if_neg hany, Text.cut_iff.1 hright]
    refine Accounts.append ?_ hsegments ?_
    · split
      · rename_i htwo
        exact .nil fun violation heq hoccurs => by
          subst heq
          exact hoccurs.2 htwo
      · rename_i hshape
        have htells : RuleProblem.Tells dependency owner
            (.ownerShape (String.intercalate ":" owner)) .shape := .shape
        rw [joined_eq hright] at htells
        exact .one ⟨fun howner => hany (hlone.2 howner), hshape⟩ htells
    · rintro violation rfl ⟨slot, -, heq⟩
      cases heq

/-! ### Keys without two halves -/

/-- A key has two halves exactly if it holds one separator. -/
theorem exists_segmented_iff {key : String} :
    (∃ dependency owner, Segmented key dependency owner) ↔ Text.count '@' key = 1 := by
  have hlength := Text.length_fields '@' key
  constructor
  · rintro ⟨dependency, owner, left, right, hkey, -, -⟩
    rw [Text.cut_iff.1 hkey, List.length_cons, List.length_singleton] at hlength
    omega
  · intro hone
    rw [hone] at hlength
    obtain ⟨left, right, hhalves⟩ := List.length_eq_two.1 hlength
    exact ⟨_, _, left, right, Text.cut_iff.2 hhalves, Text.cut_fields ':' left,
      Text.cut_fields ':' right⟩

/-- Of a key without two halves only that is told. -/
theorem problems_of_count (key : String) :
    (Text.count '@' key = 0 → problems key = [.noSeparator]) ∧
      (2 ≤ Text.count '@' key → problems key = [.severalSeparators (Text.count '@' key)]) := by
  have hlength := Text.length_fields '@' key
  rw [problems]
  split
  · rename_i left right hhalves
    rw [hhalves, List.length_cons, List.length_singleton] at hlength
    omega
  · rename_i whole hwhole
    rw [hwhole, List.length_singleton] at hlength
    exact ⟨fun _ => rfl, fun htwo => by omega⟩
  · rename_i htwo hone
    constructor
    · intro hzero
      rw [hzero] at hlength
      obtain ⟨whole, hwhole⟩ := List.length_eq_one_iff.1 hlength
      exact absurd hwhole (hone whole)
    · intro _
      rw [hlength, Nat.add_sub_cancel]

/-- The problems of a key of two halves tell all that is wrong with it. -/
theorem accounts_problems {key : String} (h : Segmented key dependency owner) :
    Accounts dependency owner (fun _ => True) (problems key) := by
  obtain ⟨left, right, hkey, hleft, hright⟩ := h
  rw [problems, Text.cut_iff.1 hkey]
  refine ((accounts_dependency hleft).append (accounts_owner hright) ?_).congr fun violation => ?_
  · rintro violation (rfl | ⟨slot, hslot, rfl⟩) (heq | ⟨other, hother, heq⟩)
    · cases heq
    · cases heq
    · cases heq
    · cases heq
      simp only [List.mem_cons, List.not_mem_nil, or_false] at hslot hother
      rcases hslot with rfl | rfl | rfl <;> rcases hother with heq | heq <;> cases heq
  · rw [iff_true]
    cases violation with
    | surplus => exact .inl (.inl rfl)
    | shape => exact .inr (.inl rfl)
    | segment slot => cases slot <;> simp

/-- Nothing is wrong with a key exactly if its segments are as the grammar wants them. -/
theorem wellFormed_iff {key : String} (h : Segmented key dependency owner) :
    WellFormed dependency owner ↔ ∀ violation : Violation, ¬ violation.Occurs dependency owner := by
  constructor
  · intro hwell violation hoccurs
    have hin : ∀ slot : Slot, ∀ text, slot.textIn dependency owner = some text →
        text ∈ dependency ++ owner := by
      intro slot text hfound
      cases slot with
      | group | artifact | version =>
        exact List.mem_append_left _ (List.mem_of_getElem? hfound)
      | ownerGroup | ownerArtifact =>
        exact List.mem_append_right _ (List.mem_of_getElem? hfound)
    cases violation with
    | surplus => exact absurd hwell.few (Nat.not_le.2 hoccurs)
    | shape => exact hwell.shape.elim hoccurs.1 hoccurs.2
    | segment slot =>
      obtain ⟨text, hfound, hbad⟩ := hoccurs
      exact hbad (hwell.allowed text (hin slot text hfound))
  · intro hnone
    obtain ⟨left, right, -, hleft, -⟩ := h
    have hfew : dependency.length ≤ 3 := Nat.not_lt.1 (hnone .surplus)
    have hshape : owner = ["*"] ∨ owner.length = 2 := by
      by_cases howner : owner = ["*"]
      · exact .inl howner
      · exact .inr (Decidable.not_not.1 fun hlength => hnone .shape ⟨howner, hlength⟩)
    have hplace : ∀ (slot : Slot) (text : String), slot.textIn dependency owner = some text →
        Segment.Allowed text := by
      intro slot text hfound
      exact Classical.not_not.1 fun hbad => hnone (.segment slot) ⟨text, hfound, hbad⟩
    refine ⟨List.length_pos_iff.2 hleft.nonempty, hfew, hshape, ?_⟩
    intro text htext
    rcases List.mem_append.1 htext with hmem | hmem
    · obtain ⟨index, hindex⟩ := List.mem_iff_getElem?.1 hmem
      obtain ⟨hlt, -⟩ := List.getElem?_eq_some_iff.1 hindex
      match index with
      | 0 => exact hplace .group text hindex
      | 1 => exact hplace .artifact text hindex
      | 2 => exact hplace .version text hindex
      | _ + 3 => omega
    · obtain ⟨index, hindex⟩ := List.mem_iff_getElem?.1 hmem
      obtain ⟨hlt, -⟩ := List.getElem?_eq_some_iff.1 hindex
      have htwo : owner.length ≤ 2 := by
        rcases hshape with rfl | hlength
        · exact Nat.le_succ 1
        · exact Nat.le_of_eq hlength
      match index with
      | 0 => exact hplace .ownerGroup text hindex
      | 1 => exact hplace .ownerArtifact text hindex
      | _ + 2 => omega

/-! ### Reading a key -/

/-- What a key says that is read, and that there is nothing wrong with it. -/
theorem of_parse_eq_ok {key : String} {rule : Rule} (h : parse key = .ok rule) :
    ∃ left right, Text.Cut '@' key [left, right] ∧ problems key = [] ∧
      rule = ⟨key, .ofText left, .ofText right⟩ := by
  rw [parse] at h
  split at h
  · rename_i left right hnone hhalves
    cases h
    exact ⟨left, right, Text.cut_iff.2 hhalves, hnone, rfl⟩
  · cases h

theorem parse_of_problems_eq_nil {key left right : String} (hkey : Text.Cut '@' key [left, right])
    (hnone : problems key = []) : parse key = .ok ⟨key, .ofText left, .ofText right⟩ := by
  rw [parse, hnone, Text.cut_iff.1 hkey]

theorem of_parse_eq_error {key : String} {error : AlignmentError} (h : parse key = .error error) :
    error = .malformedRule key (problems key) := by
  rw [parse] at h
  split at h
  · cases h
  · exact (Except.error.inj h).symm

/-- A key is read exactly if it has no problem. -/
theorem parse_isOk_iff {key : String} : (∃ rule, parse key = .ok rule) ↔ problems key = [] := by
  constructor
  · rintro ⟨rule, hrule⟩
    obtain ⟨-, -, -, hnone, -⟩ := of_parse_eq_ok hrule
    exact hnone
  · intro hnone
    have hone : Text.count '@' key = 1 := by
      by_contra hcount
      obtain ⟨hzero, htwo⟩ := problems_of_count key
      rw [hnone] at hzero htwo
      rcases Nat.lt_or_ge (Text.count '@' key) 2 with hlt | hge
      · cases hzero (by omega)
      · cases htwo hge
    obtain ⟨-, -, left, right, hkey, -, -⟩ := exists_segmented_iff.2 hone
    exact ⟨_, parse_of_problems_eq_nil hkey hnone⟩

theorem segmented_of_cut {key left right : String} (h : Text.Cut '@' key [left, right]) :
    Segmented key (Text.fields ':' left) (Text.fields ':' right) :=
  ⟨left, right, h, Text.cut_fields ':' left, Text.cut_fields ':' right⟩

theorem readFrom_ofText (key left right : String) :
    (⟨key, .ofText left, .ofText right⟩ : Rule).ReadFrom (Text.fields ':' left)
      (Text.fields ':' right) := by
  have hlone : Text.fields ':' right = ["*"] ↔ right = "*" := by
    constructor
    · intro hfields
      rw [← joined_eq (Text.cut_iff.2 hfields), String.intercalate_singleton]
    · rintro rfl
      decide
  have howner : (OwnerPattern.ofText right).ReadFrom (Text.fields ':' right) := by
    rw [OwnerPattern.ReadFrom, hlone]
    by_cases hany : right = "*"
    · simp [hany, OwnerPattern.ofText]
    · rw [OwnerPattern.ofText_eq hany]
      refine ⟨by simp [hany], fun group artifact heq => ?_⟩
      cases heq
      exact ⟨Segment.readFrom_ofPlace _, Segment.readFrom_ofPlace _⟩
  rw [DependencyPattern.ofText_eq]
  exact ⟨Segment.readFrom_ofPlace _, Segment.readFrom_ofPlace _, Segment.readFrom_ofPlace _, howner⟩

theorem wellFormed_iff_problems {key : String} (h : Segmented key dependency owner) :
    WellFormed dependency owner ↔ problems key = [] := by
  obtain ⟨violations, -, hmem, htells⟩ := accounts_problems h
  rw [wellFormed_iff h]
  constructor
  · intro hnone
    have hempty : violations = [] := List.eq_nil_iff_forall_not_mem.2 fun violation hviolation =>
      hnone violation ((hmem violation).1 hviolation).1
    rw [hempty] at htells
    exact List.forall₂_nil_right_iff.1 htells
  · intro hproblems violation hoccurs
    rw [hproblems, List.forall₂_nil_left_iff] at htells
    have hviolation := (hmem violation).2 ⟨hoccurs, trivial⟩
    rw [htells] at hviolation
    cases hviolation

/-- The keys that are read are the grammatical ones. A rule says what the segments of its key say:
the wildcard where that is written or nothing is, and else the text. An error lists the problems of
its key. There is one when there is not one separator, and otherwise there is exactly one for every
way in which the key breaks the grammar. -/
theorem parse_grammar (key : String) :
    ((∃ rule, parse key = .ok rule) ↔ Grammatical key) ∧
    (∀ rule, parse key = .ok rule → rule.key = key ∧
      ∃ dependency owner, Segmented key dependency owner ∧ rule.ReadFrom dependency owner) ∧
    ∀ error, parse key = .error error → ∃ problems, error = .malformedRule key problems ∧
      (Text.count '@' key = 0 → problems = [.noSeparator]) ∧
      (2 ≤ Text.count '@' key → problems = [.severalSeparators (Text.count '@' key)]) ∧
      (Text.count '@' key = 1 → ∃ dependency owner, Segmented key dependency owner ∧
        ∃ violations : List Violation, violations.Nodup ∧
          (∀ violation, violation ∈ violations ↔ violation.Occurs dependency owner) ∧
          List.Forall₂ (RuleProblem.Tells dependency owner) problems violations) := by
  refine ⟨?_, ?_, ?_⟩
  · rw [parse_isOk_iff]
    constructor
    · intro hnone
      obtain ⟨rule, hrule⟩ := parse_isOk_iff.2 hnone
      obtain ⟨left, right, hkey, -, -⟩ := of_parse_eq_ok hrule
      have hsegmented := segmented_of_cut hkey
      exact ⟨_, _, hsegmented, (wellFormed_iff_problems hsegmented).2 hnone⟩
    · rintro ⟨dependency, owner, hsegmented, hwell⟩
      exact (wellFormed_iff_problems hsegmented).1 hwell
  · intro rule hrule
    obtain ⟨left, right, hkey, -, rfl⟩ := of_parse_eq_ok hrule
    exact ⟨rfl, _, _, segmented_of_cut hkey, readFrom_ofText key left right⟩
  · intro error herror
    obtain ⟨hzero, htwo⟩ := problems_of_count key
    refine ⟨problems key, of_parse_eq_error herror, hzero, htwo, ?_⟩
    intro hone
    obtain ⟨dependency, owner, hsegmented⟩ := exists_segmented_iff.2 hone
    obtain ⟨violations, hnodup, hmem, htells⟩ := accounts_problems hsegmented
    refine ⟨dependency, owner, hsegmented, violations, hnodup, fun violation => ?_, htells⟩
    rw [hmem, and_true]

/-- A key in which five things are wrong. -/
example : problems ":ab*::x@org.acme" =
    [.tooManySegments ":ab*::x" 4, .emptySegment .group, .mixedSegment .artifact "ab*",
      .emptySegment .version, .ownerShape "org.acme"] := by decide

end Rule

end BuildAlignment
