import BuildAlignment.Text.Fields

/-!
# Numbers in decimal digits

* `valueOf` is the number that digits write.
* `number?` reads digits into a number of at most sixty-four bits.
-/

namespace BuildAlignment.Text

def largestNumber : Nat := 18446744073709551615

def valueOf (digits : List Char) : Nat :=
  digits.foldl (fun value d => value * 10 + (d.toNat - 48)) 0

/-- The last digit counts once and the digits before it ten times. -/
theorem valueOf_concat (digits : List Char) (d : Char) :
    valueOf (digits ++ [d]) = valueOf digits * 10 + (d.toNat - 48) := by
  simp [valueOf]

/-- Reads digits, of which there has to be one. The number has at most sixty-four bits. -/
def number? (digits : List Char) : Option Nat :=
  if digits.isEmpty || !digits.all isDigit then none
  else if valueOf digits ≤ largestNumber then some (valueOf digits)
  else none

example : number? "007".toList = some 7 := by decide

example : number? "18446744073709551616".toList = none := by decide

end BuildAlignment.Text
