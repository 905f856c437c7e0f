import BuildAlignment.Text.Fields

/-!
# Escapes in JSON texts

Between its quotes a text is written with escapes.

* `encode` writes the quote, the backslash and the control characters as escapes, and every other
  character as it is.
* `decode` reads a written text. It tells a text that breaks the rules apart from one whose escapes
  name half a surrogate pair.
-/

namespace BuildAlignment.Json

def hexDigit (value : Nat) : Char :=
  if value < 10 then Char.ofNat (48 + value) else Char.ofNat (87 + value)

def encodeChar (c : Char) : List Char :=
  match c with
  | '"' => ['\\', '"']
  | '\\' => ['\\', '\\']
  | '\x08' => ['\\', 'b']
  | '\t' => ['\\', 't']
  | '\n' => ['\\', 'n']
  | '\x0c' => ['\\', 'f']
  | '\r' => ['\\', 'r']
  | c =>
    if c.toNat < 32 then ['\\', 'u', '0', '0', hexDigit (c.toNat / 16), hexDigit (c.toNat % 16)]
    else [c]

def encode (cs : List Char) : List Char :=
  cs.flatMap encodeChar

/-- The value of a hexadecimal digit in either case. -/
def hexValue? (c : Char) : Option Nat :=
  if Text.isDigit c then some (c.toNat - 48)
  else if 'a' ≤ c ∧ c ≤ 'f' then some (c.toNat - 87)
  else if 'A' ≤ c ∧ c ≤ 'F' then some (c.toNat - 55)
  else none

def hexUnit? (a b c d : Char) : Option Nat :=
  match hexValue? a, hexValue? b, hexValue? c, hexValue? d with
  | some a, some b, some c, some d => some (((a * 16 + b) * 16 + c) * 16 + d)
  | _, _, _, _ => none

def shortEscape? : Char → Option Char
  | '"' => some '"'
  | '\\' => some '\\'
  | '/' => some '/'
  | 'b' => some '\x08'
  | 't' => some '\t'
  | 'n' => some '\n'
  | 'f' => some '\x0c'
  | 'r' => some '\r'
  | _ => none

/-- A piece of a written text: a character, or the sixteen bits of a numeric escape. -/
inductive Piece where
  | char (c : Char)
  | unit (value : Nat)
  deriving DecidableEq, Repr

/-- The pieces of a written text, unless an escape breaks the rules. -/
def pieces? : List Char → Option (List Piece)
  | [] => some []
  | '\\' :: 'u' :: a :: b :: c :: d :: rest =>
    match hexUnit? a b c d, pieces? rest with
    | some value, some found => some (.unit value :: found)
    | _, _ => none
  | '\\' :: e :: rest =>
    match shortEscape? e, pieces? rest with
    | some c, some found => some (.char c :: found)
    | _, _ => none
  | ['\\'] => none
  | c :: rest => (pieces? rest).map (.char c :: ·)

/-- Whether a unit is the first half of a surrogate pair. -/
def isHigh (unit : Nat) : Bool := 0xD800 ≤ unit && unit < 0xDC00

def isLow (unit : Nat) : Bool := 0xDC00 ≤ unit && unit < 0xE000

/-- The characters of some pieces. Two halves of a pair that follow each other make one character,
and half a pair alone makes none. -/
def characters? : List Piece → Option (List Char)
  | [] => some []
  | .char c :: rest => (characters? rest).map (c :: ·)
  | .unit high :: .unit low :: rest =>
    if isHigh high && isLow low then
      (characters? rest).map (Char.ofNat (0x10000 + (high - 0xD800) * 0x400 + (low - 0xDC00)) :: ·)
    else if isHigh high || isLow high then none
    else (characters? (.unit low :: rest)).map (Char.ofNat high :: ·)
  | .unit value :: rest =>
    if isHigh value || isLow value then none
    else (characters? rest).map (Char.ofNat value :: ·)

inductive Decoded where
  | text (value : String)
  | garbled
  | malformed
  deriving DecidableEq, Repr

def decode (written : List Char) : Decoded :=
  match pieces? written with
  | none => .malformed
  | some found =>
    match characters? found with
    | none => .garbled
    | some cs => .text (String.ofList cs)

example : decode "\\ud83d\\ude00\\n".toList = .text "😀\n" := by decide

example : decode "\\ud800".toList = .garbled := by decide

example : encode "\"\x01\x7f".toList = "\\\"\\u0001\x7f".toList := by decide

end BuildAlignment.Json
