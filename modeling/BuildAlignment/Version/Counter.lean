/-!
# Counters as digit strings

Counters of any length, written in decimal digits with or without leading zeros.

* `significant` drops the leading zeros.
* `compareCounters` compares two counters as numbers.
* `increment` counts up by one.
* `padLeft` fills up with zeros on the left.
-/

namespace BuildAlignment.Version

/-- The digits after the leading zeros. -/
def significant (digits : List Char) : List Char :=
  digits.dropWhile (· == '0')

/-- The order of the first characters that differ, where the texts have one length. -/
def compareDigits : List Char → List Char → Ordering
  | a :: as, b :: bs => (compare a b).then (compareDigits as bs)
  | [], _ :: _ => .lt
  | _ :: _, [] => .gt
  | [], [] => .eq

/-- Without leading zeros the longer counter is the larger, and of two of one length the first
difference decides. -/
def compareCounters (first second : List Char) : Ordering :=
  let a := significant first
  let b := significant second
  (compare a.length b.length).then (compareDigits a b)

/-- Adds one to digits that stand with the lowest first. -/
def succDigits : List Char → List Char
  | [] => ['1']
  | d :: ds => if d = '9' then '0' :: succDigits ds else Char.ofNat (d.toNat + 1) :: ds

/-- The next counter, without leading zeros. -/
def increment (digits : List Char) : List Char :=
  (succDigits (significant digits).reverse).reverse

/-- Fills up with zeros on the left to a least width. -/
def padLeft (width : Nat) (digits : List Char) : List Char :=
  List.replicate (width - digits.length) '0' ++ digits

theorem significant_padLeft (width : Nat) (digits : List Char) :
    significant (padLeft width digits) = significant digits := by
  simp only [padLeft, significant]
  induction width - digits.length with
  | zero => rfl
  | succ n ih => simp [List.replicate_succ, ih]

example : increment "0999".toList = "1000".toList := by decide

example : compareCounters "00012".toList "9".toList = .gt := by decide

end BuildAlignment.Version
