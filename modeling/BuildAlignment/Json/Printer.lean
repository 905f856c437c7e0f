import BuildAlignment.Json
import BuildAlignment.Json.Escape

/-!
# Printed JSON

Values are printed over several lines. Every member and item stands on its own line, two blanks
further in than what holds it, and an empty object or list stays on one line.

* `Json.printed` prints a value at a level of indentation.
* `Json.render` prints a value as a text.
* `Json.quoted` prints a text with its quotes.
-/

namespace BuildAlignment.Json

def quoted (value : String) : List Char :=
  '"' :: (encode value.toList ++ ['"'])

def newLine (level : Nat) : List Char :=
  '\n' :: List.replicate (2 * level) ' '

mutual

/-- A value, where the lines inside it stand one level further in. -/
def printed (level : Nat) : Json → List Char
  | null => "null".toList
  | bool true => "true".toList
  | bool false => "false".toList
  | number digits => digits
  | text value => quoted value
  | garbled => quoted ""
  | list [] => ['[', ']']
  | list (item :: items) =>
    '[' :: (newLine (level + 1) ++ printed (level + 1) item ++ printedItems (level + 1) items
      ++ newLine level ++ [']'])
  | object [] => ['\x7b', '\x7d']
  | object ((name, value) :: members) =>
    '\x7b' :: (newLine (level + 1) ++ quoted name ++ [':', ' '] ++ printed (level + 1) value
      ++ printedMembers (level + 1) members ++ newLine level ++ ['\x7d'])

def printedItems (level : Nat) : List Json → List Char
  | [] => []
  | item :: items => ',' :: (newLine level ++ printed level item ++ printedItems level items)

def printedMembers (level : Nat) : List (String × Json) → List Char
  | [] => []
  | (name, value) :: members =>
    ',' :: (newLine level ++ quoted name ++ [':', ' '] ++ printed level value
      ++ printedMembers level members)

end

def render (value : Json) : String :=
  String.ofList (printed 0 value)

example : render (object [("a", list []), ("b", null)])
    = "\x7b\n  \"a\": [],\n  \"b\": null\n\x7d" := by decide

end BuildAlignment.Json
