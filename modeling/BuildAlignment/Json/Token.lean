import BuildAlignment.Text.Fields

/-!
# JSON tokens

A JSON text is a row of tokens with blank space between them.

* `Token` is one of six marks, a text between quotes, or a run of bare characters.
* `Token.scan?` cuts a text into tokens, character by character.
* `isNumber` holds of the bare characters that write a number.
-/

namespace BuildAlignment.Json

inductive Token where
  | openObject
  | closeObject
  | openList
  | closeList
  | colon
  | comma
  | quoted (written : List Char)
  | bare (written : List Char)
  deriving DecidableEq, Repr

namespace Token

/-- The characters of numbers and words. -/
def isBareChar (c : Char) : Bool :=
  Text.isDigit c || ('a' ≤ c && c ≤ 'z') || c == 'E' || c == '+' || c == '-' || c == '.'

/-- Where a scan stands. The characters of an unfinished token are kept with the last one first. -/
inductive Mode where
  | between
  | quoted (read : List Char)
  | escaped (read : List Char)
  | bare (read : List Char)
  deriving DecidableEq, Repr

/-- The token that a character is, if it is one, and where the scan stands after it. -/
def start? (c : Char) : Option (List Token × Mode) :=
  match c with
  | ' ' | '\n' | '\t' | '\r' => some ([], .between)
  | '\x7b' => some ([openObject], .between)
  | '\x7d' => some ([closeObject], .between)
  | '[' => some ([openList], .between)
  | ']' => some ([closeList], .between)
  | ':' => some ([colon], .between)
  | ',' => some ([comma], .between)
  | '"' => some ([], .quoted [])
  | c => if isBareChar c then some ([], .bare [c]) else none

/-- Scans on from a mode, with the tokens so far in reverse order. A text may not hold a control
character, and has to be closed. -/
def scanFrom? : Mode → List Token → List Char → Option (List Token)
  | .between, done, [] => some done.reverse
  | .bare read, done, [] => some (bare read.reverse :: done).reverse
  | .quoted _, _, [] => none
  | .escaped _, _, [] => none
  | .between, done, c :: cs =>
    match start? c with
    | some (found, mode) => scanFrom? mode (found ++ done) cs
    | none => none
  | .bare read, done, c :: cs =>
    if isBareChar c then scanFrom? (.bare (c :: read)) done cs
    else match start? c with
      | some (found, mode) => scanFrom? mode (found ++ bare read.reverse :: done) cs
      | none => none
  | .quoted read, done, c :: cs =>
    if c = '"' then scanFrom? .between (quoted read.reverse :: done) cs
    else if c = '\\' then scanFrom? (.escaped read) done cs
    else if c.toNat < 32 then none
    else scanFrom? (.quoted (c :: read)) done cs
  | .escaped read, done, c :: cs =>
    if c.toNat < 32 then none else scanFrom? (.quoted (c :: '\\' :: read)) done cs

def scan? (cs : List Char) : Option (List Token) :=
  scanFrom? .between [] cs

end Token

/-! ### Numbers -/

/-- Digits, at least one. -/
def isDigits (cs : List Char) : Bool :=
  !cs.isEmpty && cs.all Text.isDigit

/-- An exponent, if there is one. -/
def isExponent : List Char → Bool
  | [] => true
  | e :: rest =>
    (e == 'e' || e == 'E') &&
      match rest with
      | '+' :: digits => isDigits digits
      | '-' :: digits => isDigits digits
      | digits => isDigits digits

/-- A fraction, if there is one, and an exponent, if there is one. -/
def isFraction : List Char → Bool
  | '.' :: rest =>
    !(rest.takeWhile Text.isDigit).isEmpty && isExponent (rest.dropWhile Text.isDigit)
  | rest => isExponent rest

/-- A number without a sign has no leading zero. -/
def isUnsigned : List Char → Bool
  | '0' :: rest => isFraction rest
  | cs => !(cs.takeWhile Text.isDigit).isEmpty && isFraction (cs.dropWhile Text.isDigit)

/-- A number may have a minus sign. -/
def isNumber : List Char → Bool
  | '-' :: rest => isUnsigned rest
  | cs => isUnsigned cs

example : isNumber "-0.5e+10".toList = true := by decide

example : isNumber "01".toList = false := by decide

end BuildAlignment.Json
