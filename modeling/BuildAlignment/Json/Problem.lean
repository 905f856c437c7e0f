import BuildAlignment.Text.Number

/-!
# Problems with JSON texts

The wording of a problem may end in the position at which it was met.

* `Problem` is a wording with its position, and `Problem.text` writes both.
* `Problem.ofText` takes the position off the end of a wording.
-/

namespace BuildAlignment.Json

/-- What is wrong with a JSON text, and where. There is no line zero, so a problem in it is nowhere. -/
structure Problem where
  wording : List Char
  line : Nat := 0
  column : Nat := 0
  deriving DecidableEq, Repr

namespace Problem

/-- What stands before the line of a position. -/
def lineMark : List Char := " at line ".toList

/-- What stands between the line and the column of a position. -/
def columnMark : List Char := " column ".toList

/-- Takes a mark with a number behind it off the end of a text, which stands with its last character
first. -/
def takeNumber? (mark reversed : List Char) : Option (List Char × Nat) :=
  let digits := (reversed.takeWhile Text.isDigit).reverse
  match mark.reverse.isPrefixOf? (reversed.dropWhile Text.isDigit), Text.number? digits with
  | some before, some value => some (before, value)
  | _, _ => none

/-- The problem with a wording that ends in a position, or in none. -/
def ofChars (written : List Char) : Problem :=
  match takeNumber? columnMark written.reverse with
  | none => ⟨written, 0, 0⟩
  | some (before, column) =>
    match takeNumber? lineMark before with
    | none => ⟨written, 0, 0⟩
    | some (wording, line) => ⟨wording.reverse, line, column⟩

/-- The wording, with the position behind it if there is one. -/
def chars (problem : Problem) : List Char :=
  if problem.line = 0 then problem.wording
  else problem.wording ++ lineMark ++ (toString problem.line).toList ++ columnMark
    ++ (toString problem.column).toList

def ofText (text : String) : Problem := ofChars text.toList

def text (problem : Problem) : String := String.ofList problem.chars

example : ofText "x at line 03 column 7" = ⟨['x'], 3, 7⟩ := by decide

example : ofText "x at line 3 column" = ⟨"x at line 3 column".toList, 0, 0⟩ := by decide

end Problem

end BuildAlignment.Json
