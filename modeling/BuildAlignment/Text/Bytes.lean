/-!
# Text measured in bytes

A text is stored in UTF-8, and some limits count its bytes rather than its characters.

* `byteSize` is the number of bytes of a list of characters.
* `cutTail?` cuts off a last part of a given number of bytes, and fails when the cut would fall
  inside a character.
-/

namespace BuildAlignment.Text

def byteSize : List Char → Nat
  | [] => 0
  | c :: cs => c.utf8Size + byteSize cs

theorem byteSize_append (xs ys : List Char) :
    byteSize (xs ++ ys) = byteSize xs + byteSize ys := by
  induction xs with
  | nil => simp [byteSize]
  | cons c cs ih => simp [byteSize, ih, Nat.add_assoc]

/-- Cuts off the last `size` bytes. There is no answer when the text is shorter, or when the cut
does not fall between two characters. -/
def cutTail? (size : Nat) : List Char → Option (List Char × List Char)
  | [] => if size = 0 then some ([], []) else none
  | c :: cs =>
    if byteSize (c :: cs) = size then some ([], c :: cs)
    else if byteSize (c :: cs) < size then none
    else (cutTail? size cs).map fun parts => (c :: parts.1, parts.2)

/-- The two parts make up the text again, and the second has the size asked for. -/
theorem cutTail?_eq_some {size : Nat} {cs head tail : List Char}
    (h : cutTail? size cs = some (head, tail)) : head ++ tail = cs ∧ byteSize tail = size := by
  induction cs generalizing head tail with
  | nil =>
    simp only [cutTail?] at h
    split at h
    · simp_all [byteSize]
    · simp at h
  | cons c cs ih =>
    simp only [cutTail?] at h
    split at h
    · simp_all
    · split at h
      · simp at h
      · obtain ⟨⟨head', tail'⟩, hcut, hparts⟩ := Option.map_eq_some_iff.1 h
        simp only [Prod.mk.injEq] at hparts
        obtain ⟨rfl, rfl⟩ := hparts
        obtain ⟨happend, hsize⟩ := ih hcut
        exact ⟨by simp [happend], hsize⟩

end BuildAlignment.Text
