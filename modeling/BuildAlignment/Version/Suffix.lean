import BuildAlignment.Text.Fields
import BuildAlignment.Version.Counter

/-!
# Incremental version suffixes

An aligned version ends in a suffix and a counter, as `1.0-redhat-00001` does.

* `splitSuffixed?` takes a version with a given suffix apart.
* `formatVersion` puts one together.
* `nextVersion` counts on from the highest counter that is known for the same base.
* `nextVersion?` refuses to fill up a counter beyond the width that can be written.
-/

namespace BuildAlignment.Version

def defaultSuffix : String := "redhat"

def defaultPadding : Nat := 5

/-- The largest width of a counter that may be configured. -/
def maxPadding : Nat := 32

/-- The largest width that a counter can be filled up to. -/
def widestPadding : Nat := 65535

/-- The base and the counter of a version that ends in a hyphen, the suffix, a hyphen and digits.
The base must stand on one line, and an empty suffix marks no version.

Suffixes of every length are looked for. A search by a compiled pattern may give up on a pattern above
some size limit, and would then find no counter behind a suffix of hundreds of thousands of
characters. It is assumed here, and in all that is said about counting on, that there is no such
limit. -/
def splitSuffixed? (suffix version : List Char) : Option (List Char × List Char) :=
  let reversed := version.reverse
  let digits := reversed.takeWhile Text.isDigit
  if suffix.isEmpty || digits.isEmpty then none
  else
    match ('-' :: (suffix.reverse ++ ['-'])).isPrefixOf? (reversed.dropWhile Text.isDigit) with
    | none => none
    | some base => if base.contains '\n' then none else some (base.reverse, digits.reverse)

/-- The version of a base, a suffix and a counter of a least width. -/
def formatVersion (base suffix : List Char) (padding : Nat) (counter : List Char) : List Char :=
  base ++ '-' :: (suffix ++ '-' :: padLeft padding counter)

/-- The larger of two counters, the second of two equal ones. -/
def laterCounter (first second : List Char) : List Char :=
  if compareCounters first second = .gt then first else second

def highestCounter? : List (List Char) → Option (List Char)
  | [] => none
  | counter :: rest => some (rest.foldl laterCounter counter)

/-- The counters of the candidates that stand on a base. -/
def countersOn (base suffix : List Char) (candidates : List (List Char)) : List (List Char) :=
  candidates.filterMap fun candidate =>
    match splitSuffixed? suffix candidate with
    | some (own, counter) => if own = base then some counter else none
    | none => none

/-- The next version after the current one and the candidates on the same base. The first one has the
counter one. -/
def nextChars (current : List Char) (candidates : List (List Char)) (suffix : List Char)
    (padding : Nat) : List Char :=
  let (base, own) := match splitSuffixed? suffix current with
    | some (base, counter) => (base, [counter])
    | none => (current, [])
  let counter := match highestCounter? (own ++ countersOn base suffix candidates) with
    | some highest => increment highest
    | none => ['1']
  formatVersion base suffix padding counter

def nextVersion (current : String) (candidates : List String) (suffix : String)
    (padding : Nat) : String :=
  String.ofList (nextChars current.toList (candidates.map String.toList) suffix.toList padding)

/-- The next version of a text. There is no answer when the counter would have to be filled up beyond
what can be written, however long it is by itself. -/
def nextVersion? (current : String) (candidates : List String) (suffix : String)
    (padding : Nat) : Option String :=
  if padding ≤ widestPadding then some (nextVersion current candidates suffix padding) else none

/-- There is an answer exactly for the paddings that can be written. -/
theorem isSome_nextVersion? (current : String) (candidates : List String) (suffix : String)
    (padding : Nat) :
    (nextVersion? current candidates suffix padding).isSome = decide (padding ≤ widestPadding) := by
  unfold nextVersion?
  split <;> simp_all

/-- Every padding that may be configured can be written. -/
theorem maxPadding_le_widestPadding : maxPadding ≤ widestPadding := by decide

example : nextVersion "1.0-redhat-00009" [] "redhat" 5 = "1.0-redhat-00010" := by decide

example : nextVersion "1.0" ["1.0-redhat-7", "2.0-redhat-9"] "redhat" 2 = "1.0-redhat-08" := by
  decide

end BuildAlignment.Version
