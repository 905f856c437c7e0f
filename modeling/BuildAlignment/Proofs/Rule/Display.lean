import BuildAlignment.Proofs.Rule.Grammar

/-!
# The text form of a rule

The text form writes out an artifact that the key leaves out, and leaves out a version that does not
matter. It is the one normal form of all keys that say the same.

* `Segment.Clean` holds of segments that are read back from any place of a key, `Rule.Clean` of rules
  made of them. By `Rule.clean_of_parse` every rule that was read is one.
* `Rule.Clean.parse_display`: such a rule is read back from its text form.
* `Rule.display_normal`: two keys have one text form exactly if they say the same, and this form says
  it too.
-/

namespace BuildAlignment

/-! ### Segments that are read back -/

/-- A literal that is read as itself, and holds no character that ends a segment. -/
def Segment.Clean : Segment → Prop
  | literal text => text ≠ "*" ∧ Allowed text ∧ ':' ∉ text.toList ∧ '@' ∉ text.toList
  | wildcard => True

namespace Segment

theorem Clean.ofText_display {segment : Segment} (h : segment.Clean) :
    ofText segment.display = segment := by
  cases segment with
  | literal text => exact if_neg h.1
  | wildcard => exact if_pos rfl

theorem Clean.allowed_display {segment : Segment} (h : segment.Clean) :
    Allowed segment.display := by
  cases segment with
  | literal text => exact h.2.1
  | wildcard => exact .inl rfl

theorem Clean.colon_not_mem {segment : Segment} (h : segment.Clean) :
    ':' ∉ segment.display.toList := by
  cases segment with
  | literal text => exact h.2.2.1
  | wildcard => decide

theorem Clean.at_not_mem {segment : Segment} (h : segment.Clean) :
    '@' ∉ segment.display.toList := by
  cases segment with
  | literal text => exact h.2.2.2
  | wildcard => decide

theorem clean_ofText {text : String} (hallowed : Allowed text) (hcolon : ':' ∉ text.toList)
    (hat : '@' ∉ text.toList) : (ofText text).Clean := by
  rw [ofText]
  split
  · trivial
  · rename_i hstar
    exact ⟨hstar, hallowed, hcolon, hat⟩

end Segment

/-! ### Patterns that are read back -/

/-- The segments that the text form of a pattern shows. -/
def DependencyPattern.shown (pattern : DependencyPattern) : List Segment :=
  if pattern.version = .wildcard then [pattern.group, pattern.artifact]
  else [pattern.group, pattern.artifact, pattern.version]

def OwnerPattern.shown : OwnerPattern → List Segment
  | any => [.wildcard]
  | owner group artifact => [group, artifact]

theorem DependencyPattern.display_eq (pattern : DependencyPattern) :
    pattern.display = String.intercalate ":" (pattern.shown.map Segment.display) := by
  rw [display, shown]
  split <;> simp [String.intercalate_cons_cons, String.intercalate_singleton, String.append_assoc]

theorem OwnerPattern.display_eq (owner : OwnerPattern) :
    owner.display = String.intercalate ":" (owner.shown.map Segment.display) := by
  cases owner with
  | any => rfl
  | owner group artifact =>
    simp [display, shown, String.intercalate_cons_cons, String.intercalate_singleton,
      String.append_assoc]

/-- The segments of a text form are its fields. -/
theorem Segment.cut_display {segments : List Segment} (hne : segments ≠ [])
    (h : ∀ segment ∈ segments, segment.Clean) :
    Text.Cut ':' (String.intercalate ":" (segments.map display)) (segments.map display) := by
  refine ⟨by simpa using hne, ?_, rfl⟩
  intro part hpart
  obtain ⟨segment, hsegment, rfl⟩ := List.mem_map.1 hpart
  exact (h segment hsegment).colon_not_mem

theorem Segment.at_not_mem_intercalate {segments : List Segment}
    (h : ∀ segment ∈ segments, segment.Clean) :
    '@' ∉ (String.intercalate ":" (segments.map display)).toList := by
  induction segments with
  | nil => decide
  | cons first rest ih =>
    have hfirst := (h first List.mem_cons_self).at_not_mem
    have hrest := ih fun segment hsegment => h segment (List.mem_cons_of_mem _ hsegment)
    cases rest with
    | nil => simpa [String.intercalate_singleton] using hfirst
    | cons second others =>
      rw [List.map_cons, List.map_cons, String.intercalate_cons_cons]
      rw [List.map_cons] at hrest
      have hcolon : '@' ∉ ":".toList := by decide
      simp only [String.toList_append, List.mem_append, not_or]
      exact ⟨⟨hfirst, hcolon⟩, hrest⟩

/-- A pattern of clean segments. -/
structure DependencyPattern.Clean (pattern : DependencyPattern) : Prop where
  group : pattern.group.Clean
  artifact : pattern.artifact.Clean
  version : pattern.version.Clean

def OwnerPattern.Clean (owner : OwnerPattern) : Prop := ∀ segment ∈ owner.shown, segment.Clean

namespace DependencyPattern

variable {pattern : DependencyPattern}

theorem Clean.shown (h : pattern.Clean) : ∀ segment ∈ pattern.shown, segment.Clean := by
  intro segment hsegment
  rw [DependencyPattern.shown] at hsegment
  split at hsegment
  · simp only [List.mem_cons, List.not_mem_nil, or_false] at hsegment
    rcases hsegment with rfl | rfl
    · exact h.group
    · exact h.artifact
  · simp only [List.mem_cons, List.not_mem_nil, or_false] at hsegment
    rcases hsegment with rfl | rfl | rfl
    · exact h.group
    · exact h.artifact
    · exact h.version

theorem shown_ne_nil (pattern : DependencyPattern) : pattern.shown ≠ [] := by
  rw [DependencyPattern.shown]
  split <;> exact List.cons_ne_nil _ _

theorem Clean.cut_display (h : pattern.Clean) :
    Text.Cut ':' pattern.display (pattern.shown.map Segment.display) := by
  rw [display_eq]
  exact Segment.cut_display pattern.shown_ne_nil h.shown

/-- A missing version and one that is the wildcard are the same. -/
theorem Clean.ofText_display (h : pattern.Clean) : ofText pattern.display = pattern := by
  obtain ⟨group, artifact, version⟩ := pattern
  have hgroup := h.group.ofText_display
  have hartifact := h.artifact.ofText_display
  have hversion := h.version.ofText_display
  simp only at hgroup hartifact hversion
  rw [ofText, Text.cut_iff.1 h.cut_display, DependencyPattern.shown]
  by_cases hwild : version = .wildcard
  · simp [hwild, hgroup, hartifact]
  · simp [hwild, hgroup, hartifact, hversion]

end DependencyPattern

namespace OwnerPattern

variable {owner : OwnerPattern}

theorem shown_ne_nil (owner : OwnerPattern) : owner.shown ≠ [] := by
  cases owner <;> exact List.cons_ne_nil _ _

theorem Clean.cut_display (h : owner.Clean) :
    Text.Cut ':' owner.display (owner.shown.map Segment.display) := by
  rw [display_eq]
  exact Segment.cut_display owner.shown_ne_nil h

theorem Clean.ofText_display (h : owner.Clean) : ofText owner.display = owner := by
  have hcut := Text.cut_iff.1 h.cut_display
  cases owner with
  | any => rfl
  | owner group artifact =>
    have hgroup := (h group (by simp [OwnerPattern.shown])).ofText_display
    have hartifact := (h artifact (by simp [OwnerPattern.shown])).ofText_display
    -- Two segments are not the lone wildcard, which is one.
    have hlone : (OwnerPattern.owner group artifact).display ≠ "*" := by
      intro hstar
      have hone : (Text.fields ':' "*").length = 1 := by decide
      rw [← hstar, hcut, List.length_map, OwnerPattern.shown] at hone
      cases hone
    rw [ofText, if_neg hlone, hcut]
    simp [OwnerPattern.shown, hgroup, hartifact]

end OwnerPattern

/-! ### Rules that are read back -/

namespace Rule

structure Clean (rule : Rule) : Prop where
  pattern : rule.pattern.Clean
  owner : rule.owner.Clean

variable {rule : Rule}

theorem Clean.cut_display (h : rule.Clean) :
    Text.Cut '@' rule.display [rule.pattern.display, rule.owner.display] := by
  refine ⟨List.cons_ne_nil _ _, ?_, ?_⟩
  · intro part hpart
    simp only [List.mem_cons, List.not_mem_nil, or_false] at hpart
    rcases hpart with rfl | rfl
    · rw [DependencyPattern.display_eq]
      exact Segment.at_not_mem_intercalate h.pattern.shown
    · rw [OwnerPattern.display_eq]
      exact Segment.at_not_mem_intercalate h.owner
  · rw [String.intercalate_cons_cons, String.intercalate_singleton]
    rfl

theorem Clean.problems_display (h : rule.Clean) : problems rule.display = [] := by
  refine (wellFormed_iff_problems
    ⟨_, _, h.cut_display, h.pattern.cut_display, h.owner.cut_display⟩).1 ⟨?_, ?_, ?_, ?_⟩
  · rw [List.length_map]
    exact List.length_pos_iff.2 rule.pattern.shown_ne_nil
  · rw [List.length_map, DependencyPattern.shown]
    split <;> simp
  · cases rule.owner with
    | any => exact .inl rfl
    | owner group artifact => exact .inr rfl
  · intro text htext
    rw [← List.map_append] at htext
    obtain ⟨segment, hsegment, rfl⟩ := List.mem_map.1 htext
    rcases List.mem_append.1 hsegment with hmem | hmem
    · exact (h.pattern.shown segment hmem).allowed_display
    · exact (h.owner segment hmem).allowed_display

theorem Clean.parse_display (h : rule.Clean) :
    parse rule.display = .ok { rule with key := rule.display } := by
  rw [parse_of_problems_eq_nil h.cut_display h.problems_display, h.pattern.ofText_display,
    h.owner.ofText_display]

theorem clean_of_parse {key : String} (h : parse key = .ok rule) : rule.Clean := by
  obtain ⟨left, right, hkey, hnone, rfl⟩ := of_parse_eq_ok h
  have hwell := (wellFormed_iff_problems (segmented_of_cut hkey)).2 hnone
  -- A segment holds neither the separator of its half nor that of the key.
  have hpart : ∀ half ∈ [left, right], ∀ text ∈ Text.fields ':' half, Segment.Allowed text →
      (Segment.ofText text).Clean := by
    intro half hhalf text htext hallowed
    refine Segment.clean_ofText hallowed (Text.not_mem_of_mem_fields htext) fun hat => ?_
    exact hkey.free half hhalf (Text.mem_of_mem_fields htext hat)
  have hplace : ∀ half ∈ [left, right], (∀ text ∈ Text.fields ':' half, Segment.Allowed text) →
      ∀ index : Nat, (Segment.ofPlace (Text.fields ':' half)[index]?).Clean := by
    intro half hhalf hallowed index
    cases htext : (Text.fields ':' half)[index]? with
    | none => trivial
    | some text =>
      have hmem := List.mem_of_getElem? htext
      exact hpart half hhalf text hmem (hallowed text hmem)
  have hdependency := hplace left (by simp) fun text htext =>
    hwell.allowed text (List.mem_append_left _ htext)
  have howner := hplace right (by simp) fun text htext =>
    hwell.allowed text (List.mem_append_right _ htext)
  rw [DependencyPattern.ofText_eq]
  refine ⟨⟨hdependency 0, hdependency 1, hdependency 2⟩, ?_⟩
  intro segment hsegment
  by_cases hany : right = "*"
  · subst hany
    rw [List.mem_singleton.1 hsegment]
    trivial
  · simp only [OwnerPattern.ofText_eq hany, OwnerPattern.shown, List.mem_cons, List.not_mem_nil,
      or_false] at hsegment
    rcases hsegment with rfl | rfl
    · exact howner 0
    · exact howner 1

/-- The text form of a rule that was read is a key that says the same, so it covers the same
dependencies of the same modules, in whatever versions, and has the same text form. Two keys have one
text form exactly if they say the same. -/
theorem display_normal {first second : String} {rule other : Rule} (hrule : parse first = .ok rule)
    (hother : parse second = .ok other) :
    (∃ again, parse rule.display = .ok again ∧ again.pattern = rule.pattern ∧
      again.owner = rule.owner ∧ again.display = rule.display ∧
      ∀ (candidate owner : Coordinate) (version ownerVersion : String),
        again.covers candidate owner
          = rule.covers (candidate.withVersion version) (owner.withVersion ownerVersion)) ∧
    (rule.display = other.display ↔ rule.pattern = other.pattern ∧ rule.owner = other.owner) := by
  have hread := (clean_of_parse hrule).parse_display
  constructor
  · exact ⟨_, hread, rfl, rfl, rfl, fun candidate owner version ownerVersion => rfl⟩
  · constructor
    · intro hsame
      have hread' := (clean_of_parse hother).parse_display
      rw [← hsame, hread] at hread'
      injection hread' with hrules
      injection hrules with _ hpattern howner
      exact ⟨hpattern, howner⟩
    · rintro ⟨hpattern, howner⟩
      rw [display, display, hpattern, howner]

/-- A key that leaves the artifact out, and one that writes the artifact and the version as
wildcards. -/
theorem display_normal_of_wildcards :
    ∃ rule other, parse "g@o:*" = .ok rule ∧ parse "g:*:*@o:*" = .ok other ∧
      rule.key ≠ other.key ∧ rule.display = "g:*@o:*" ∧ rule.display = other.display ∧
      ∃ again, parse rule.display = .ok again ∧ again.pattern = rule.pattern ∧
        again.owner = rule.owner ∧ again.display = rule.display := by
  have hrule : parse "g@o:*" =
      .ok ⟨"g@o:*", ⟨.literal "g", .wildcard, .wildcard⟩, .owner (.literal "o") .wildcard⟩ := rfl
  have hother : parse "g:*:*@o:*" =
      .ok ⟨"g:*:*@o:*", ⟨.literal "g", .wildcard, .wildcard⟩, .owner (.literal "o") .wildcard⟩ := rfl
  obtain ⟨⟨again, hagain, hpattern, howner, hdisplay, -⟩, hsame⟩ := display_normal hrule hother
  exact ⟨_, _, hrule, hother, by decide, by decide, hsame.2 ⟨rfl, rfl⟩, again, hagain, hpattern,
    howner, hdisplay⟩

end Rule

end BuildAlignment
