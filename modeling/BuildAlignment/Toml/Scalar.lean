import BuildAlignment.Toml
import BuildAlignment.Toml.Text

/-!
# TOML values without quotes

Truth values, numbers and dates.

* `integer?` reads whole numbers of any size.
* `floatFits?` recognises floating point numbers and says whether a double can hold them.
* `datetime?` reads dates and times into a normal form.
* `Toml.ofBare?` is the value of a run of bare characters.
-/

namespace BuildAlignment.Toml

/-! ### Numbers -/

/-- Digits of some kind, with single underscores between them taken out. -/
def plainDigits? (isDigit : Char → Bool) : List Char → Option (List Char)
  | [] => none
  | [d] => if isDigit d then some [d] else none
  | d :: '_' :: rest => if isDigit d then (plainDigits? isDigit rest).map (d :: ·) else none
  | d :: e :: rest => if isDigit d then (plainDigits? isDigit (e :: rest)).map (d :: ·) else none

def numberOf (base : Nat) (digits : List Char) : Nat :=
  digits.foldl (fun value d => value * base + (Json.hexValue? d).getD 0) 0

/-- A number to a base other than ten. -/
def based? (base : Nat) (digits : List Char) : Option Nat :=
  (plainDigits? (fun d => (Json.hexValue? d).any (· < base)) digits).map (numberOf base)

/-- Decimal digits without a leading zero. -/
def decimalDigits? (cs : List Char) : Option (List Char) :=
  match plainDigits? Text.isDigit cs with
  | some ('0' :: _ :: _) => none
  | found => found

def integer? : List Char → Option Int
  | '0' :: 'x' :: rest => (based? 16 rest).map Int.ofNat
  | '0' :: 'o' :: rest => (based? 8 rest).map Int.ofNat
  | '0' :: 'b' :: rest => (based? 2 rest).map Int.ofNat
  | '+' :: rest => (decimalDigits? rest).map fun digits => Int.ofNat (numberOf 10 digits)
  | '-' :: rest => (decimalDigits? rest).map fun digits => -Int.ofNat (numberOf 10 digits)
  | cs => (decimalDigits? cs).map fun digits => Int.ofNat (numberOf 10 digits)

/-- What follows a sign, if there is one. -/
def unsigned : List Char → List Char
  | '+' :: rest => rest
  | '-' :: rest => rest
  | cs => cs

/-- The least number that is too large for a double: half a step above the largest one. -/
def overflowBound : Nat := Nat.pow 2 1024 - Nat.pow 2 970

/-- Whether a double can hold the number of some digits times a power of ten. Where the number has 309
digits before the point, these decide. -/
def fitsDouble (digits : List Char) (exponent : Int) : Bool :=
  let significant := digits.dropWhile (· == '0')
  let size : Int := significant.length + exponent
  if significant.isEmpty || size < 309 then true
  else if 309 < size then false
  else
    let whole := significant.take 309 ++ List.replicate (309 - significant.length) '0'
    decide (numberOf 10 whole < overflowBound)

/-- The exponent of a number, with the letter before it. There may be none. -/
def exponent? : List Char → Option Int
  | [] => some 0
  | _ :: '-' :: rest =>
    (plainDigits? Text.isDigit rest).map fun digits => -Int.ofNat (numberOf 10 digits)
  | _ :: rest =>
    (plainDigits? Text.isDigit (unsigned rest)).map fun digits => Int.ofNat (numberOf 10 digits)

/-- Whether a double can hold a number with a fraction or an exponent. -/
def decimalFits? (body : List Char) : Option Bool :=
  let isE (c : Char) : Bool := c == 'e' || c == 'E'
  let tail := body.dropWhile fun c => !isE c
  match (body.takeWhile fun c => !isE c).splitOn '.', exponent? tail with
  | [whole], some exponent =>
    if tail.isEmpty then none
    else (decimalDigits? whole).map fun digits => fitsDouble digits exponent
  | [whole, fraction], some exponent =>
    match decimalDigits? whole, plainDigits? Text.isDigit fraction with
    | some digits, some places =>
      some (fitsDouble (digits ++ places) (exponent - places.length))
    | _, _ => none
  | _, _ => none

/-- Whether a double can hold a floating point number, which has a fraction or an exponent, or is
infinite or no number at all by name. -/
def floatFits? (cs : List Char) : Option Bool :=
  let body := unsigned cs
  if body = "inf".toList ∨ body = "nan".toList then some true else decimalFits? body

/-! ### Dates and times -/

def daysOf (year month : Nat) : Nat :=
  if month = 2 then
    if year % 4 = 0 ∧ (year % 100 ≠ 0 ∨ year % 400 = 0) then 29 else 28
  else if [4, 6, 9, 11].contains month then 30
  else 31

/-- A date, with what follows it. -/
def date? : List Char → Option (List Char × List Char)
  | a :: b :: c :: d :: '-' :: e :: f :: '-' :: g :: h :: rest =>
    if [a, b, c, d, e, f, g, h].all Text.isDigit then
      let year := numberOf 10 [a, b, c, d]
      let month := numberOf 10 [e, f]
      let day := numberOf 10 [g, h]
      if 1 ≤ month ∧ month ≤ 12 ∧ 1 ≤ day ∧ day ≤ daysOf year month then
        some ([a, b, c, d, '-', e, f, '-', g, h], rest)
      else none
    else none
  | _ => none

/-- The fraction of a second without trailing zeros, to nine places. -/
def fractionText (digits : List Char) : List Char :=
  match ((digits.take 9).reverse.dropWhile (· == '0')).reverse with
  | [] => []
  | kept => '.' :: kept

def time? : List Char → Option (List Char × List Char)
  | a :: b :: ':' :: c :: d :: ':' :: e :: f :: rest =>
    if [a, b, c, d, e, f].all Text.isDigit && numberOf 10 [a, b] ≤ 23
        && numberOf 10 [c, d] ≤ 59 && numberOf 10 [e, f] ≤ 60 then
      let clock := [a, b, ':', c, d, ':', e, f]
      match rest with
      | '.' :: digits =>
        let fraction := digits.takeWhile Text.isDigit
        if fraction.isEmpty then none
        else some (clock ++ fractionText fraction, digits.dropWhile Text.isDigit)
      | _ => some (clock, rest)
    else none
  | _ => none

def offset? : List Char → Option (List Char)
  | [c] => if c == 'Z' || c == 'z' then some ['Z'] else none
  | [sign, a, b, ':', c, d] =>
    if (sign == '+' || sign == '-') && [a, b, c, d].all Text.isDigit && numberOf 10 [a, b] ≤ 23
        && numberOf 10 [c, d] ≤ 59 then
      some [if [a, b, c, d] == "0000".toList then '+' else sign, a, b, ':', c, d]
    else none
  | _ => none

/-- A date, a time, or a date with a time and perhaps an offset. -/
def datetime? (cs : List Char) : Option (List Char) :=
  match date? cs with
  | some (date, []) => some date
  | some (date, mark :: rest) =>
    if mark == 'T' || mark == 't' || mark == ' ' then
      match time? rest with
      | some (time, []) => some (date ++ 'T' :: time)
      | some (time, zone) => (offset? zone).map fun offset => date ++ 'T' :: (time ++ offset)
      | none => none
    else none
  | none =>
    match time? cs with
    | some (time, []) => some time
    | _ => none

/-! ### All of them -/

def ofBare? (cs : List Char) : Option Toml :=
  if cs = "true".toList then some (.boolean true)
  else if cs = "false".toList then some (.boolean false)
  else match integer? cs with
    | some value => some (.integer value)
    | none =>
      match floatFits? cs with
      | some fits => some (.float fits)
      | none => (datetime? cs).map fun found => .datetime (String.ofList found)

example : integer? "1_000".toList = some 1000 := by decide

example : integer? "0x1F".toList = some 31 := by decide

example : floatFits? "6.626e-34".toList = some true := by decide

example : floatFits? "1.7976931348623157e308".toList = some true := by decide +kernel

example : floatFits? "-1.7976931348623159e308".toList = some false := by decide +kernel

example : floatFits? "1.0.0".toList = none := by decide

example : datetime? "1979-05-27 07:32:00.500z".toList = some "1979-05-27T07:32:00.5Z".toList := by
  decide

end BuildAlignment.Toml
