import BuildAlignment.Json.Escape

/-!
# TOML texts

A text is written on one line or over several, with escapes or literally.

* `decodeBasic?` and `decodeLiteral?` read what stands between single quotation marks.
* `decodeMultiBasic?` and `decodeMultiLiteral?` read what stands between triple ones.
-/

namespace BuildAlignment.Toml

def isForbidden (c : Char) : Bool :=
  (c.toNat < 32 && c != '\t') || c.toNat == 127

def shortEscape? : Char → Option Char
  | 'b' => some '\x08'
  | 't' => some '\t'
  | 'n' => some '\n'
  | 'f' => some '\x0c'
  | 'r' => some '\r'
  | '"' => some '"'
  | '\\' => some '\\'
  | _ => none

/-- The character with a code point, unless it is half a surrogate pair or too large. -/
def scalar? (value : Nat) : Option Char :=
  if h : value.isValidChar then some (Char.ofNatAux value h) else none

/-- A space, a tab or a line feed. -/
def isGap (c : Char) : Bool := c == ' ' || c == '\t' || c == '\n'

/-- What follows the line end at the start. A carriage return ends a line only together with a line
feed. -/
def afterLineEnd? : List Char → Option (List Char)
  | '\n' :: rest => some rest
  | '\r' :: '\n' :: rest => some rest
  | _ => none

/-- Whether nothing but spaces and tabs stands before the next line end. -/
def endsLine (cs : List Char) : Bool :=
  (afterLineEnd? (cs.dropWhile fun c => c == ' ' || c == '\t')).isSome

/-- Replaces escapes. Over several lines, line ends stay as they are written, and a backslash at the
end of a line takes the gap after it away, where `skipping` is set while that lasts. -/
def unescape? (multi : Bool) (skipping : Bool) : List Char → Option (List Char)
  | [] => some []
  | '\r' :: '\n' :: rest =>
    if !multi then none
    else if skipping then unescape? multi true rest
    else (unescape? multi false rest).map fun found => '\r' :: '\n' :: found
  | '\\' :: 'u' :: a :: b :: c :: d :: rest =>
    match (Json.hexUnit? a b c d).bind scalar?, unescape? multi false rest with
    | some char, some found => some (char :: found)
    | _, _ => none
  | '\\' :: 'U' :: a :: b :: c :: d :: e :: f :: g :: h :: rest =>
    match Json.hexUnit? a b c d, Json.hexUnit? e f g h, unescape? multi false rest with
    | some high, some low, some found => (scalar? (high * 0x10000 + low)).map (· :: found)
    | _, _, _ => none
  | '\\' :: e :: rest =>
    if multi && endsLine (e :: rest) then unescape? multi true rest
    else match shortEscape? e, unescape? multi false rest with
      | some char, some found => some (char :: found)
      | _, _ => none
  | c :: rest =>
    if skipping && isGap c then unescape? multi true rest
    else if c == '\\' || (isForbidden c && !(multi && c == '\n')) then none
    else (unescape? multi false rest).map (c :: ·)

/-- A line end right behind the opening marks does not count. -/
def dropFirstLine (cs : List Char) : List Char :=
  (afterLineEnd? cs).getD cs

/-- Whether all control characters are tabs or belong to line ends. -/
def isOverLines : List Char → Bool
  | [] => true
  | '\r' :: '\n' :: rest => isOverLines rest
  | c :: rest => (c == '\n' || !isForbidden c) && isOverLines rest

def decodeBasic? (written : List Char) : Option String :=
  (unescape? false false written).map String.ofList

def decodeMultiBasic? (written : List Char) : Option String :=
  (unescape? true false (dropFirstLine written)).map String.ofList

def decodeLiteral? (written : List Char) : Option String :=
  if written.any isForbidden then none else some (String.ofList written)

def decodeMultiLiteral? (written : List Char) : Option String :=
  if isOverLines written then some (String.ofList (dropFirstLine written)) else none

example : decodeBasic? "r\\u00e9\\U0001F600\\\"".toList = some "ré😀\"" := by decide

example : decodeMultiBasic? "\na \\  \n  b".toList = some "a b" := by decide

example : decodeMultiBasic? "\r\na\\ \r\n\r\n b\r\nc".toList = some "ab\r\nc" := by decide

example : decodeMultiLiteral? "a\rb".toList = none := by decide

end BuildAlignment.Toml
