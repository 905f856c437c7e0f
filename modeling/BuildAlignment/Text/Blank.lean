/-!
# Blank characters

The characters that count as blank are those of Unicode's `White_Space` property.

* `isBlankChar` decides the class by a table of code point ranges.
* `trimChars` and `trim` cut blank characters off both ends.
* `isBlank` holds of a text that has nothing but blank characters.
-/

namespace BuildAlignment.Text

/-- The inclusive code point ranges of `White_Space`, in ascending order. -/
def blankRanges : List (Nat × Nat) :=
  [(0x09, 0x0D), (0x20, 0x20), (0x85, 0x85), (0xA0, 0xA0), (0x1680, 0x1680), (0x2000, 0x200A),
    (0x2028, 0x2029), (0x202F, 0x202F), (0x205F, 0x205F), (0x3000, 0x3000)]

/-- A character is blank when its code point lies in one of the ranges. -/
def isBlankChar (c : Char) : Bool :=
  blankRanges.any fun range => range.1 ≤ c.toNat && c.toNat ≤ range.2

/-- Cuts the blank characters off both ends of a list of characters. -/
def trimChars (cs : List Char) : List Char :=
  ((cs.dropWhile isBlankChar).reverse.dropWhile isBlankChar).reverse

def trim (text : String) : String :=
  String.ofList (trimChars text.toList)

def isBlank (text : String) : Bool :=
  text.toList.all isBlankChar

/-- Every character that core calls whitespace is blank. -/
theorem isBlankChar_of_isWhitespace (c : Char) (h : c.isWhitespace = true) :
    isBlankChar c = true := by
  simp only [Char.isWhitespace, Bool.or_eq_true, decide_eq_true_eq] at h
  rcases h with ((rfl | rfl) | rfl) | rfl <;> decide

theorem toList_trim (text : String) : (trim text).toList = trimChars text.toList :=
  String.toList_ofList

example : trim " \tsubA\u3000" = "subA" := by decide

end BuildAlignment.Text
