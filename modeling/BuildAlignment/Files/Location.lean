/-!
# File locations

Locations are texts whose steps are separated by slashes.

* `parent?` is the location of what holds a file, and `holders` goes on to what holds that.
* `withExtension` puts another extension on a file name.
* `join` takes a location relative to another one.
-/

namespace BuildAlignment.Files.Location

/-- The steps of a location as they are written, the last one first. -/
def reversedSteps (location : String) : List String :=
  ((location.toList.splitOn '/').map String.ofList).reverse

def ofReversed (steps : List String) : String :=
  String.intercalate "/" steps.reverse

/-- Drops last steps that lead nowhere. The first step is kept whatever it is. -/
def dropIdle : List String → List String
  | step :: next :: rest =>
    if step = "" ∨ step = "." then dropIdle (next :: rest) else step :: next :: rest
  | steps => steps

/-- The location of what holds a file. The root and the empty location have none. -/
def parent? (location : String) : Option String :=
  match dropIdle (reversedSteps location) with
  | [] => none
  | [step] => if step = "" then none else some ""
  | _ :: rest =>
    match dropIdle rest with
    | [""] => some "/"
    | steps => some (ofReversed steps)

/-- The locations that end in each of the steps that lead somewhere, the whole one first. -/
def holdersFrom : List String → List String
  | [] => []
  | [step] => if step = "" then [] else [step]
  | step :: next :: rest =>
    if step = "" ∨ step = "." then holdersFrom (next :: rest)
    else ofReversed (step :: next :: rest) :: holdersFrom (next :: rest)

/-- A location, what holds it, what holds that, and so on, without the root. -/
def holders (location : String) : List String :=
  holdersFrom (reversedSteps location)

def stem (name : String) : String :=
  let reversed := name.toList.reverse
  match reversed.dropWhile (· != '.') with
  | '.' :: before => if before.isEmpty then name else String.ofList before.reverse
  | _ => name

/-- The location of the file with another extension. A location that does not end in a name stays
as it is. The extension that is there goes first, and where only two dots are left at the end, they
lead to what holds the file and are no name that an extension could follow. -/
def withExtension (extension location : String) : String :=
  let steps := reversedSteps location
  match dropIdle steps with
  | name :: rest =>
    if name = "" ∨ name = "." ∨ name = ".." then location
    else if stem name = "." ∧ steps.head? = some name then ofReversed (".." :: rest)
    else ofReversed ((stem name ++ "." ++ extension) :: rest)
  | [] => location

def isAbsolute (location : String) : Bool :=
  location.toList.head? == some '/'

/-- A location relative to a base. One that starts at the root does not depend on the base. -/
def join (base location : String) : String :=
  if isAbsolute location then location
  else if base = "" ∨ base.toList.getLast? = some '/' then base ++ location
  else base ++ "/" ++ location

example : holders "a/./../b/" = ["a/./../b", "a/./..", "a"] := by decide

example : withExtension "tmp" "d/..json" = "d/.." := by decide

example : withExtension "tmp" "d/..json/" = "d/..tmp" := by decide

example : parent? "n//..//f/m.json" = some "n//..//f" := by decide

end BuildAlignment.Files.Location
