/-!
# Edit distance

The least number of insertions, deletions and replacements of characters that turn one text into
another, by the usual table. A row of the table holds the distances from one text to every end
part of the other, the whole of it first.

* `emptyRow` is the row of the empty text.
* `nextRow` is the row of a text with one more character in front.
* `distance` reads the first entry of the last row.
-/

namespace BuildAlignment.Text

/-- From the empty text, every end part costs its length in insertions. -/
def emptyRow : List Char → List Nat
  | [] => [0]
  | _ :: ys => (ys.length + 1) :: emptyRow ys

/-- The row of `x :: xs`, from the row of `xs`. Each entry is the cheapest of a deletion, an
insertion, and a replacement that is free between equal characters. -/
def nextRow (x : Char) : List Char → List Nat → List Nat
  | y :: ys, below :: diagonal :: entries =>
    let right := nextRow x ys (diagonal :: entries)
    let step := if x = y then 0 else 1
    min (below + 1) (min (right.headD 0 + 1) (diagonal + step)) :: right
  | _, [below] => [below + 1]
  | _, _ => []

/-- The row of `xs` over the end parts of `ys`. -/
def distanceRow (ys : List Char) : List Char → List Nat
  | [] => emptyRow ys
  | x :: xs => nextRow x ys (distanceRow ys xs)

def distance (source target : String) : Nat :=
  (distanceRow target.toList source.toList).headD 0

example : distance "kitten" "sitting" = 3 := by decide

example : distance "" "abc" = 3 := by decide

end BuildAlignment.Text
