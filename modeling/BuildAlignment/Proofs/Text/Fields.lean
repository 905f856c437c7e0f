import BuildAlignment.Text.Fields
import Mathlib.Data.List.Basic

/-!
# Fields that are read back

* `Text.fields_eq_of_toList`: a text that joins parts without the separator has these parts as its
  fields.
* `Text.not_mem_of_mem_fields`: no field holds the separator. By `Text.mem_of_mem_fields` it holds
  characters of the text only, and by `Text.length_fields` there is one more field than separators.
* `Text.stripStart?_eq_some_iff` is about texts with a fixed beginning.
* `Text.Cut` says what it is to cut a text at a separator. By `Text.cut_iff` the fields are the one
  way to do it.
* `Text.Cut.append`: a text that goes on after a separator is cut where its two parts are cut.
-/

namespace BuildAlignment.Text

/-- Parts that were joined with a separator which they do not hold are the fields of the text. -/
theorem fields_eq_of_toList {separator : Char} {text : String} {parts : List String}
    (hfree : ∀ part ∈ parts, separator ∉ part.toList) (hne : parts ≠ [])
    (h : text.toList = [separator].intercalate (parts.map String.toList)) :
    fields separator text = parts := by
  have hsplit : ([separator].intercalate (parts.map String.toList)).splitOn separator
      = parts.map String.toList := by
    apply List.splitOn_intercalate
    · intro cs hcs
      obtain ⟨part, hpart, rfl⟩ := List.mem_map.1 hcs
      exact hfree part hpart
    · simpa using hne
  rw [fields, h, hsplit, List.map_map]
  calc parts.map (String.ofList ∘ String.toList)
      = parts.map id := List.map_congr_left fun part _ => String.ofList_toList
    _ = parts := List.map_id _

theorem not_mem_of_mem_splitOn {c : Char} {cs part : List Char} (h : part ∈ cs.splitOn c) :
    c ∉ part := by
  induction cs generalizing part with
  | nil =>
    rw [List.splitOn_nil, List.mem_singleton] at h
    rw [h]
    exact List.not_mem_nil
  | cons head rest ih =>
    rw [List.splitOn_cons_eq_if_modifyHead] at h
    split at h
    · rcases List.mem_cons.1 h with rfl | hmem
      · exact List.not_mem_nil
      · exact ih hmem
    · rename_i hhead
      cases hparts : rest.splitOn c with
      | nil => exact absurd hparts (List.splitOn_ne_nil c rest)
      | cons first others =>
        rw [hparts, List.modifyHead_cons] at h
        rcases List.mem_cons.1 h with rfl | hmem
        · rw [List.mem_cons, not_or]
          refine ⟨fun heq => hhead (by simp [heq]), ih ?_⟩
          rw [hparts]
          exact List.mem_cons_self
        · apply ih
          rw [hparts]
          exact List.mem_cons_of_mem _ hmem

theorem not_mem_of_mem_fields {separator : Char} {text field : String}
    (h : field ∈ fields separator text) : separator ∉ field.toList := by
  obtain ⟨part, hpart, rfl⟩ := List.mem_map.1 h
  rw [String.toList_ofList]
  exact not_mem_of_mem_splitOn hpart

theorem length_splitOn (c : Char) (cs : List Char) : (cs.splitOn c).length = cs.count c + 1 := by
  induction cs with
  | nil => rw [List.splitOn_nil]; rfl
  | cons head rest ih =>
    rw [List.splitOn_cons_eq_if_modifyHead]
    by_cases hhead : head = c
    · rw [if_pos (by simpa using hhead), List.length_cons, ih, hhead, List.count_cons_self]
    · rw [if_neg (by simpa using hhead), List.length_modifyHead, ih, List.count_cons_of_ne hhead]

theorem length_fields (separator : Char) (text : String) :
    (fields separator text).length = count separator text + 1 := by
  rw [fields, List.length_map, length_splitOn, count]

/-- A part that was joined is inside the whole. -/
theorem mem_intercalate {separator : List Char} {parts : List (List Char)} {part : List Char}
    (hpart : part ∈ parts) {c : Char} (hc : c ∈ part) : c ∈ separator.intercalate parts := by
  induction parts with
  | nil => cases hpart
  | cons first rest ih =>
    cases rest with
    | nil =>
      rw [List.intercalate_singleton, ← List.mem_singleton.1 hpart]
      exact hc
    | cons second others =>
      rw [List.intercalate_cons_cons]
      rcases List.mem_cons.1 hpart with rfl | hrest
      · exact List.mem_append_left _ (List.mem_append_left _ hc)
      · exact List.mem_append_right _ (ih hrest)

theorem mem_of_mem_fields {separator : Char} {text field : String}
    (h : field ∈ fields separator text) {c : Char} (hc : c ∈ field.toList) : c ∈ text.toList := by
  obtain ⟨part, hpart, rfl⟩ := List.mem_map.1 h
  rw [String.toList_ofList] at hc
  have hwhole : [separator].intercalate (text.toList.splitOn separator) = text.toList :=
    List.intercalate_splitOn separator
  rw [← hwhole]
  exact mem_intercalate hpart hc

/-- A text begins with a start exactly if it is the start with what follows it. -/
theorem stripStart?_eq_some_iff {start text rest : String} :
    stripStart? start text = some rest ↔ text = start ++ rest := by
  rw [stripStart?, Option.map_eq_some_iff]
  constructor
  · rintro ⟨found, hfound, rfl⟩
    rw [List.isPrefixOf?_eq_some_iff_append_eq] at hfound
    apply String.toList_inj.1
    rw [String.toList_append, String.toList_ofList, hfound]
  · rintro rfl
    refine ⟨rest.toList, ?_, String.ofList_toList⟩
    rw [List.isPrefixOf?_eq_some_iff_append_eq, String.toList_append]

/-! ### Cutting a text -/

/-- The parts that a text falls into at a separator: none of them holds it, and joined by it they are
the text again. -/
structure Cut (separator : Char) (text : String) (parts : List String) : Prop where
  nonempty : parts ≠ []
  free : ∀ part ∈ parts, separator ∉ part.toList
  joined : String.intercalate (String.ofList [separator]) parts = text

/-- A text can be cut in one way, and its fields are that way. -/
theorem cut_iff {separator : Char} {text : String} {parts : List String} :
    Cut separator text parts ↔ fields separator text = parts := by
  constructor
  · intro h
    refine fields_eq_of_toList h.free h.nonempty ?_
    rw [← h.joined, String.toList_intercalate, String.toList_ofList]
  · rintro rfl
    refine ⟨?_, fun part hpart => not_mem_of_mem_fields hpart, intercalate_fields separator text⟩
    rw [← List.length_pos_iff, length_fields]
    omega

theorem cut_fields (separator : Char) (text : String) :
    Cut separator text (fields separator text) := cut_iff.2 rfl

/-- A text that goes on after a separator is cut where its two parts are cut, and at this
separator. -/
theorem Cut.append {separator : Char} {front rest : String} {before after : List String}
    (hbefore : Cut separator front before) (hafter : Cut separator rest after) :
    Cut separator (front ++ String.ofList [separator] ++ rest) (before ++ after) where
  nonempty := by simp [hbefore.nonempty]
  free part hpart := (List.mem_append.1 hpart).elim (hbefore.free part) (hafter.free part)
  joined := by
    rw [String.intercalate_append_of_ne_nil hbefore.nonempty hafter.nonempty, hbefore.joined,
      hafter.joined]

end BuildAlignment.Text
