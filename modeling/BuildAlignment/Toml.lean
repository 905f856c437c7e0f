import BuildAlignment.Text.Number

/-!
# TOML values

* `Toml` is the type of values. The entries of a table stand in the order in which they were
  written.
* `Toml.entries?` gives the entries of what counts as a table.
* `Toml.isPassable` and `Toml.isKeepable` hold of values whose numbers are small enough to be read
  over or to be kept.
-/

namespace BuildAlignment

/-- A TOML value. Whole numbers have any size until they are used. A floating point number is kept
without its value, of which nothing matters but whether a double can hold it. -/
inductive Toml where
  | text (value : String)
  | integer (value : Int)
  | float (fits : Bool)
  | boolean (value : Bool)
  /-- A date, a time or both, in normal form. -/
  | datetime (value : String)
  | list (items : List Toml)
  | table (entries : List (String × Toml))

namespace Toml

/-- The key under which a date stands where a table is asked for. -/
def datetimeKey : String := "$__toml_private_datetime"

/-- The entries of a table. A date counts as a table of one entry. -/
def entries? : Toml → Option (List (String × Toml))
  | table entries => some entries
  | datetime value => some [(datetimeKey, text value)]
  | _ => none

def items? : Toml → Option (List Toml)
  | list items => some items
  | _ => none

def text? : Toml → Option String
  | text value => some value
  | _ => none

def boolean? : Toml → Option Bool
  | boolean value => some value
  | _ => none

/-- A number that is not negative and has at most sixty-four bits. -/
def natural? : Toml → Option Nat
  | integer (.ofNat value) => if value ≤ Text.largestNumber then some value else none
  | _ => none

/-- The value of a key in a list of entries. -/
def lookup? (key : String) (entries : List (String × Toml)) : Option Toml :=
  (entries.find? fun entry => entry.1 == key).map Prod.snd

def textEntries? (value : Toml) : Option (List (String × String)) :=
  match value.entries? with
  | some entries => entries.mapM fun entry => entry.2.text?.map fun found => (entry.1, found)
  | none => none

/-- Reads an entry that may be missing. -/
def optional? {α : Type} (read : Toml → Option α) (entries : List (String × Toml)) (key : String) :
    Option (Option α) :=
  match lookup? key entries with
  | none => some none
  | some value => (read value).map some

/-- Reads an entry that has a value of its own when it is missing. -/
def withDefault? {α : Type} (read : Toml → Option α) (default : α)
    (entries : List (String × Toml)) (key : String) : Option α :=
  (optional? read entries key).map fun found => found.getD default

def onlyKnown (names : List String) (entries : List (String × Toml)) : Bool :=
  entries.all fun entry => names.contains entry.1

/-! ### Sizes of numbers -/

mutual

/-- Whether every whole number in a value lies between two bounds and every floating point number
fits. -/
def isWithin (least most : Int) : Toml → Bool
  | integer value => decide (least ≤ value) && decide (value ≤ most)
  | float fits => fits
  | list items => allWithin least most items
  | table entries => entriesWithin least most entries
  | _ => true

def allWithin (least most : Int) : List Toml → Bool
  | [] => true
  | item :: rest => isWithin least most item && allWithin least most rest

def entriesWithin (least most : Int) : List (String × Toml) → Bool
  | [] => true
  | (_, value) :: rest => isWithin least most value && entriesWithin least most rest

end

/-- A value that nobody asks for is still read, with whole numbers of at most 128 bits, with or
without a sign. -/
def isPassable (value : Toml) : Bool :=
  value.isWithin (-170141183460469231731687303715884105728)
    340282366920938463463374607431768211455

/-- A value that is kept until its shape is known has whole numbers of at most sixty-four bits, with
or without a sign. -/
def isKeepable (value : Toml) : Bool :=
  value.isWithin (-9223372036854775808) Text.largestNumber

example : (integer (-9223372036854775809)).isPassable = true := by decide

example : (list [integer 1, integer 18446744073709551616]).isKeepable = false := by decide

example : (table [("x", float false)]).isPassable = false := by decide

end Toml

end BuildAlignment
