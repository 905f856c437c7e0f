/-!
# Separated fields

Texts cut at a separator character, and small questions about their ends.

* `fields` cuts a text at every occurrence of a separator, so `n` separators give `n + 1` fields.
* `count` counts a character, `contains` asks for one.
* `stripStart?` takes a fixed beginning off a text.
* `asciiLower` folds the twenty-six letters of ASCII and nothing else.
-/

namespace BuildAlignment.Text

def fields (separator : Char) (text : String) : List String :=
  (text.toList.splitOn separator).map String.ofList

/-- Joining the fields with the separator gives the text back. -/
theorem intercalate_fields (separator : Char) (text : String) :
    String.intercalate (String.ofList [separator]) (fields separator text) = text := by
  apply String.toList_inj.1
  rw [String.toList_intercalate, String.toList_ofList, fields, List.map_map]
  have h : String.toList ∘ String.ofList = id := by
    funext cs
    simp
  rw [h, List.map_id, List.intercalate_splitOn]

def count (c : Char) (text : String) : Nat :=
  text.toList.count c

def contains (c : Char) (text : String) : Bool :=
  text.toList.contains c

/-- What follows a fixed beginning, if the text begins so. -/
def stripStart? (start text : String) : Option String :=
  (start.toList.isPrefixOf? text.toList).map String.ofList

/-- The lower case of an ASCII letter, and every other character as it is. -/
def asciiLowerChar (c : Char) : Char :=
  if 'A' ≤ c ∧ c ≤ 'Z' then Char.ofNat (c.toNat + 32) else c

def asciiLower (text : String) : String :=
  String.ofList (text.toList.map asciiLowerChar)

def isDigit (c : Char) : Bool :=
  '0' ≤ c && c ≤ '9'

example : fields ':' "a::b" = ["a", "", "b"] := by decide

example : asciiLower "REST" = "rest" := by decide

end BuildAlignment.Text
