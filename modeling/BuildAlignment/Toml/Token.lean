import BuildAlignment.Toml.Scalar

/-!
# TOML tokens

A TOML text is a row of tokens. Comments are dropped, and blank space is kept, as it tells marks
that touch from marks that do not.

* `Token` is a mark, a text, or a run of bare characters.
* `Token.scan?` cuts a text into tokens, character by character.
-/

namespace BuildAlignment.Toml

inductive Token where
  | newLine
  | blank (written : List Char)
  | equals
  | comma
  | openList
  | closeList
  | openTable
  | closeTable
  | bare (written : List Char)
  /-- A text on one line, which may also stand as a key. -/
  | text (value : String)
  /-- A text over several lines. -/
  | lines (value : String)
  deriving DecidableEq, Repr

namespace Token

/-- The characters of bare keys, numbers and dates, and the dot between keys. -/
def isBareChar (c : Char) : Bool :=
  Text.isDigit c || ('a' ≤ c && c ≤ 'z') || ('A' ≤ c && c ≤ 'Z')
    || c == '_' || c == '-' || c == '+' || c == ':' || c == '.'

/-- Where a scan stands. The characters of an unfinished token are kept with the last one first. -/
inductive Mode where
  | between
  | bare (read : List Char)
  | blank (read : List Char)
  | comment
  | basic (read : List Char)
  | literal (read : List Char)
  | multiBasic (read : List Char)
  | multiLiteral (read : List Char)
  deriving DecidableEq, Repr

/-- The token that a mode ends with when the next character is not part of it. -/
def pending : Mode → List Token
  | .bare read => [bare read.reverse]
  | .blank read => [blank read.reverse]
  | _ => []

/-- A token that consists of one character. -/
def mark? : Char → Option Token
  | '\n' => some newLine
  | '=' => some equals
  | ',' => some comma
  | '[' => some openList
  | ']' => some closeList
  | '\x7b' => some openTable
  | '\x7d' => some closeTable
  | _ => none

/-- The mode and the finished tokens after one more character outside texts. -/
def advance? (mode : Mode) (c : Char) : Option (List Token × Mode) :=
  match mark? c with
  | some found => some (found :: pending mode, .between)
  | none =>
    if c == '#' then some (pending mode, .comment)
    else if c == ' ' || c == '\t' then
      match mode with
      | .blank read => some ([], .blank (c :: read))
      | _ => some (pending mode, .blank [c])
    else if isBareChar c then
      match mode with
      | .bare read => some ([], .bare (c :: read))
      | _ => some (pending mode, .bare [c])
    else none

/-- Adds a text that can be read to the tokens so far. -/
def push? (make : String → Token) (decoded : Option String) (done : List Token) :
    Option (List Token) :=
  decoded.map fun value => make value :: done

/-- Whether a carriage return belongs to the line end after it. -/
def opensLineEnd (c : Char) (cs : List Char) : Bool :=
  c == '\r' && cs.head? == some '\n'

/-- Scans on from a mode, with the tokens so far in reverse order. Outside texts a line end is as
good with a carriage return as without. -/
def scanFrom? : Mode → List Token → List Char → Option (List Token)
  | .basic _, _, [] => none
  | .literal _, _, [] => none
  | .multiBasic _, _, [] => none
  | .multiLiteral _, _, [] => none
  | mode, done, [] => some (pending mode ++ done).reverse
  | .comment, done, c :: cs =>
    if c == '\n' then scanFrom? .between (newLine :: done) cs
    else if opensLineEnd c cs then scanFrom? .comment done cs
    else if isForbidden c then none
    else scanFrom? .comment done cs
  | .basic read, done, '\\' :: c :: cs => scanFrom? (.basic (c :: '\\' :: read)) done cs
  | .basic read, done, c :: cs =>
    if c == '"' then
      match push? text (decodeBasic? read.reverse) done with
      | some next => scanFrom? .between next cs
      | none => none
    else scanFrom? (.basic (c :: read)) done cs
  | .literal read, done, c :: cs =>
    if c == '\'' then
      match push? text (decodeLiteral? read.reverse) done with
      | some next => scanFrom? .between next cs
      | none => none
    else scanFrom? (.literal (c :: read)) done cs
  | .multiBasic read, done, '\\' :: c :: cs =>
    scanFrom? (.multiBasic (c :: '\\' :: read)) done cs
  | .multiBasic read, done, '"' :: '"' :: '"' :: '"' :: '"' :: cs =>
    match push? lines (decodeMultiBasic? ('"' :: '"' :: read).reverse) done with
    | some next => scanFrom? .between next cs
    | none => none
  | .multiBasic read, done, '"' :: '"' :: '"' :: '"' :: cs =>
    match push? lines (decodeMultiBasic? ('"' :: read).reverse) done with
    | some next => scanFrom? .between next cs
    | none => none
  | .multiBasic read, done, '"' :: '"' :: '"' :: cs =>
    match push? lines (decodeMultiBasic? read.reverse) done with
    | some next => scanFrom? .between next cs
    | none => none
  | .multiBasic read, done, c :: cs => scanFrom? (.multiBasic (c :: read)) done cs
  | .multiLiteral read, done, '\'' :: '\'' :: '\'' :: '\'' :: '\'' :: cs =>
    match push? lines (decodeMultiLiteral? ('\'' :: '\'' :: read).reverse) done with
    | some next => scanFrom? .between next cs
    | none => none
  | .multiLiteral read, done, '\'' :: '\'' :: '\'' :: '\'' :: cs =>
    match push? lines (decodeMultiLiteral? ('\'' :: read).reverse) done with
    | some next => scanFrom? .between next cs
    | none => none
  | .multiLiteral read, done, '\'' :: '\'' :: '\'' :: cs =>
    match push? lines (decodeMultiLiteral? read.reverse) done with
    | some next => scanFrom? .between next cs
    | none => none
  | .multiLiteral read, done, c :: cs => scanFrom? (.multiLiteral (c :: read)) done cs
  | mode, done, '"' :: '"' :: '"' :: cs => scanFrom? (.multiBasic []) (pending mode ++ done) cs
  | mode, done, '"' :: cs => scanFrom? (.basic []) (pending mode ++ done) cs
  | mode, done, '\'' :: '\'' :: '\'' :: cs =>
    scanFrom? (.multiLiteral []) (pending mode ++ done) cs
  | mode, done, '\'' :: cs => scanFrom? (.literal []) (pending mode ++ done) cs
  | mode, done, c :: cs =>
    if opensLineEnd c cs then scanFrom? mode done cs
    else match advance? mode c with
      | some (found, next) => scanFrom? next (found ++ done) cs
      | none => none

/-- A date and a time with one space between them are one run. -/
def joinDates : List Token → List Token
  | bare date :: blank [' '] :: bare time :: rest =>
    if (date? date).any (fun found => found.2.isEmpty) && (time? time).isSome then
      bare (date ++ ' ' :: time) :: joinDates rest
    else bare date :: joinDates (blank [' '] :: bare time :: rest)
  | found :: rest => found :: joinDates rest
  | [] => []

/-- What follows a byte order mark, if there is one. -/
def dropOrderMark : List Char → List Char
  | '\uFEFF' :: cs => cs
  | cs => cs

def scan? (cs : List Char) : Option (List Token) :=
  (scanFrom? .between [] (dropOrderMark cs)).map joinDates

end Token

end BuildAlignment.Toml
