import BuildAlignment.Text.Distance
import Mathlib.Order.Bounds.Basic

/-!
# The least number of edits

* `Text.Edits` relates two texts that are some edits apart, each of which puts a character in, takes
  one out or replaces one. `Text.EditDistance` is the least number of edits between two texts.
* `Text.charDistance_cons_cons` is what one entry of the table is computed from, by
  `Text.distanceRow_cons`, which finds the row of a shorter text in that of a longer one.
* `Text.edits_charDistance`: so many edits are enough, and by `Text.OneEdit.charDistance_le` a
  single edit never brings a text nearer by more than one.
* `Text.editDistance_iff`: the distance is the least number of edits.
-/

namespace BuildAlignment.Text

/-! ### Edits -/

/-- One character is put in, taken out or replaced. -/
inductive OneEdit : List Char → List Char → Prop
  | insert (c : Char) (cs : List Char) : OneEdit cs (c :: cs)
  | delete (c : Char) (cs : List Char) : OneEdit (c :: cs) cs
  | replace (c d : Char) (cs : List Char) : OneEdit (c :: cs) (d :: cs)
  | behind (c : Char) {source target : List Char} (h : OneEdit source target) :
      OneEdit (c :: source) (c :: target)

/-- A number of edits, one after another. -/
inductive Edits : Nat → List Char → List Char → Prop
  | none (cs : List Char) : Edits 0 cs cs
  | more {count : Nat} {source between target : List Char} (first : OneEdit source between)
      (others : Edits count between target) : Edits (count + 1) source target

/-- The least number of edits that turn one text into another. -/
def EditDistance (source target : String) (count : Nat) : Prop :=
  IsLeast {number | Edits number source.toList target.toList} count

theorem Edits.behind {count : Nat} {source target : List Char} (c : Char)
    (h : Edits count source target) : Edits count (c :: source) (c :: target) := by
  induction h with
  | none cs => exact .none _
  | more first _ ih => exact .more (first.behind c) ih

/-! ### The table -/

def charDistance (source target : List Char) : Nat := (distanceRow target source).headD 0

def replacement (c d : Char) : Nat := if c = d then 0 else 1

theorem distance_eq (source target : String) :
    distance source target = charDistance source.toList target.toList := rfl

theorem distanceRow_nil_right (source : List Char) : distanceRow [] source = [source.length] := by
  induction source with
  | nil => rfl
  | cons c rest ih =>
    rw [distanceRow, ih]
    rfl

theorem distanceRow_ne_nil (source target : List Char) : distanceRow target source ≠ [] := by
  cases target with
  | nil =>
    rw [distanceRow_nil_right]
    exact List.cons_ne_nil _ _
  | cons d target =>
    induction source with
    | nil => exact List.cons_ne_nil _ _
    | cons c rest ih =>
      obtain ⟨below, row, hrow⟩ := List.exists_cons_of_ne_nil ih
      rw [distanceRow, hrow]
      cases row <;> exact List.cons_ne_nil _ _

/-- The row over a text goes on as the row over the text without its first character. -/
theorem distanceRow_cons (source : List Char) (d : Char) (target : List Char) :
    distanceRow (d :: target) source
      = charDistance source (d :: target) :: distanceRow target source := by
  induction source with
  | nil => rfl
  | cons c rest ih =>
    obtain ⟨diagonal, entries, hrow⟩ := List.exists_cons_of_ne_nil (distanceRow_ne_nil rest target)
    rw [charDistance, distanceRow, distanceRow, ih, hrow]
    rfl

theorem charDistance_nil (target : List Char) : charDistance [] target = target.length := by
  cases target <;> rfl

theorem charDistance_nil_right (source : List Char) : charDistance source [] = source.length := by
  rw [charDistance, distanceRow_nil_right]
  rfl

/-- The cheapest of taking the first character out, putting one in front, and replacing it. -/
theorem charDistance_cons_cons (c d : Char) (source target : List Char) :
    charDistance (c :: source) (d :: target)
      = min (charDistance source (d :: target) + 1)
          (min (charDistance (c :: source) target + 1)
            (charDistance source target + replacement c d)) := by
  obtain ⟨diagonal, entries, hrow⟩ := List.exists_cons_of_ne_nil (distanceRow_ne_nil source target)
  have hhead : charDistance source target = diagonal := by rw [charDistance, hrow]; rfl
  have hright : charDistance (c :: source) target
      = (nextRow c target (diagonal :: entries)).headD 0 := by
    rw [charDistance, distanceRow, hrow]
  rw [hhead, hright, charDistance, distanceRow, distanceRow_cons, hrow]
  rfl

/-! ### So many edits are enough -/

/-- The distance is a number of edits between the texts. -/
theorem edits_charDistance (source target : List Char) :
    Edits (charDistance source target) source target := by
  induction source generalizing target with
  | nil =>
    rw [charDistance_nil]
    induction target with
    | nil => exact .none _
    | cons d target ih => exact .more (.insert d _) (ih.behind d)
  | cons c source ih =>
    induction target with
    | nil =>
      rw [charDistance_nil_right]
      have hrest := ih []
      rw [charDistance_nil_right] at hrest
      exact .more (.delete c source) hrest
    | cons d target ihTarget =>
      have hdelete := Edits.more (.delete c source) (ih (d :: target))
      have hinsert := Edits.more (.insert d (c :: source)) (ihTarget.behind d)
      have hreplace : Edits (charDistance source target + replacement c d) (c :: source)
          (d :: target) := by
        rw [replacement]
        split
        · rename_i hsame
          subst hsame
          exact (ih target).behind c
        · exact .more (.replace c d source) ((ih target).behind d)
      have hmin := charDistance_cons_cons c d source target
      generalize charDistance (c :: source) (d :: target) = cheapest at hmin
      have hcheapest : cheapest = charDistance source (d :: target) + 1 ∨
          cheapest = charDistance (c :: source) target + 1 ∨
          cheapest = charDistance source target + replacement c d := by omega
      rcases hcheapest with h | h | h
      · rw [h]
        exact hdelete
      · rw [h]
        exact hinsert
      · rw [h]
        exact hreplace

/-! ### No fewer edits are enough -/

theorem replacement_le (c d : Char) : replacement c d ≤ 1 := by
  rw [replacement]
  split <;> omega

theorem charDistance_cons_le (c : Char) (source target : List Char) :
    charDistance (c :: source) target ≤ charDistance source target + 1 := by
  cases target with
  | nil => rw [charDistance_nil_right, charDistance_nil_right, List.length_cons]
  | cons d target =>
    rw [charDistance_cons_cons]
    omega

theorem charDistance_cons_right_le (source : List Char) (d : Char) (target : List Char) :
    charDistance source (d :: target) ≤ charDistance source target + 1 := by
  cases source with
  | nil => rw [charDistance_nil, charDistance_nil, List.length_cons]
  | cons c source =>
    rw [charDistance_cons_cons]
    omega

/-- One edit does not bring a text nearer to another one by more than one. -/
theorem OneEdit.charDistance_le {source between : List Char} (h : OneEdit source between)
    (target : List Char) : charDistance source target ≤ charDistance between target + 1 := by
  induction h generalizing target with
  | insert c cs =>
    induction target with
    | nil =>
      rw [charDistance_nil_right, charDistance_nil_right, List.length_cons]
      omega
    | cons d target ih =>
      have hright := charDistance_cons_right_le cs d target
      rw [charDistance_cons_cons]
      omega
  | delete c cs => exact charDistance_cons_le c cs target
  | replace c d cs =>
    induction target with
    | nil =>
      rw [charDistance_nil_right, charDistance_nil_right, List.length_cons, List.length_cons]
      omega
    | cons e target ih =>
      have hcost := replacement_le c e
      rw [charDistance_cons_cons, charDistance_cons_cons]
      omega
  | @behind c source between _ ih =>
    induction target with
    | nil =>
      have hlength := ih []
      rw [charDistance_nil_right, charDistance_nil_right] at hlength ⊢
      rw [List.length_cons, List.length_cons]
      omega
    | cons e target ihTarget =>
      have hwhole := ih (e :: target)
      have hrest := ih target
      rw [charDistance_cons_cons, charDistance_cons_cons]
      omega

theorem charDistance_self (cs : List Char) : charDistance cs cs = 0 := by
  induction cs with
  | nil => rfl
  | cons c rest ih =>
    rw [charDistance_cons_cons, ih, replacement, if_pos rfl]
    omega

/-- The distance is not larger than any number of edits between the texts. -/
theorem Edits.charDistance_le {count : Nat} {source target : List Char}
    (h : Edits count source target) : charDistance source target ≤ count := by
  induction h with
  | none cs => rw [charDistance_self]
  | more first _ ih => exact Nat.le_trans (first.charDistance_le _) (Nat.succ_le_succ ih)

/-- The distance is the least number of edits. -/
theorem editDistance_iff {source target : String} {count : Nat} :
    EditDistance source target count ↔ distance source target = count := by
  have hleast : IsLeast {number | Edits number source.toList target.toList}
      (distance source target) := by
    rw [distance_eq]
    exact ⟨edits_charDistance _ _, fun _ h => h.charDistance_le⟩
  constructor
  · exact fun h => hleast.unique h
  · rintro rfl
    exact hleast

example : EditDistance "kitten" "sitting" 3 := editDistance_iff.2 (by decide)

end BuildAlignment.Text
