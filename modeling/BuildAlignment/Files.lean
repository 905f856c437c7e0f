import BuildAlignment.Failure
import BuildAlignment.Files.Location

/-!
# Files

Commands work on files through a small set of operations, so that they run on a disk and on a file
tree that is a value.

* `FileError` is why an operation failed.
* `Files` are the operations, in any monad.
* `Files.makeDirectories` makes a directory with all that hold it.
* `Files.replaceText` writes a file in one step, by way of a temporary file beside it.
-/

namespace BuildAlignment

inductive FileError where
  | missing
  | alreadyThere
  | notDirectory
  | isDirectory
  | busy
  | nameTooLong
  /-- A location holds the character that ends every location. -/
  | nulInName
  | other (text : String)
  deriving DecidableEq, Repr

namespace FileError

def text : FileError → String
  | missing => "No such file or directory (os error 2)"
  | alreadyThere => "File exists (os error 17)"
  | notDirectory => "Not a directory (os error 20)"
  | isDirectory => "Is a directory (os error 21)"
  | busy => "Device or resource busy (os error 16)"
  | nameTooLong => "File name too long (os error 36)"
  | nulInName => "file name contained an unexpected NUL byte"
  | other text => text

def toFailure (error : FileError) : Failure :=
  ⟨.file error.text (error == missing), []⟩

end FileError

structure Files (m : Type → Type) where
  /-- The text of a file. -/
  readText : String → m (Except FileError String)
  /-- Whether there is something at a location. -/
  exists? : String → m Bool
  /-- Whether there is a directory at a location. -/
  isDirectory : String → m Bool
  /-- Makes a directory in one that is there. -/
  makeDirectory : String → m (Except FileError Unit)
  /-- Writes a file anew. -/
  writeText : String → String → m (Except FileError Unit)
  /-- Moves a file to where another may be. -/
  move : String → String → m (Except FileError Unit)

abbrev Steps (m : Type → Type) := ExceptT Failure m

namespace Steps

variable {m : Type → Type} [Monad m] {α : Type}

def ofResult (result : Except AlignmentError α) : Steps m α :=
  match result with
  | .ok value => pure value
  | .error error => throw (.ofError error)

/-- Lifts a file operation, and says what it was for when it fails. -/
def ofFile (context : String) (operation : m (Except FileError α)) : Steps m α := do
  match ← (operation : Steps m (Except FileError α)) with
  | .ok value => pure value
  | .error error => throw (error.toFailure.within context)

def within (context : String) (steps : Steps m α) : Steps m α :=
  tryCatch steps fun failure => throw (failure.within context)

/-- A value that was read, or a cause why it could not be. -/
def orCause (cause : Cause) (context : String) : Option α → Steps m α
  | some value => pure value
  | none => throw (Failure.within ⟨cause, []⟩ context)

end Steps

namespace Files

variable {m : Type → Type} [Monad m]

/-- Takes a directory that could not be made for made when it is there. -/
def orIsDirectory (files : Files m) (location : String) :
    Except FileError Unit → m (Except FileError Unit)
  | .ok () => pure (.ok ())
  | .error error => do
    if ← files.isDirectory location then pure (.ok ()) else pure (.error error)

/-- Makes the first of some directories, each of which is held by the next one. Where it is missing what
holds it, that is made first. -/
def makeHeld (files : Files m) : List String → m (Except FileError Unit)
  | [] => pure (.ok ())
  | location :: holders => do
    match ← files.makeDirectory location with
    | .error .missing =>
      match ← files.makeHeld holders with
      | .ok () => files.orIsDirectory location (← files.makeDirectory location)
      | .error error => pure (.error error)
    | made => files.orIsDirectory location made

def makeDirectories (files : Files m) (location : String) : m (Except FileError Unit) :=
  files.makeHeld (Location.holders location)

def ensureDirectory (files : Files m) (location : String) : Steps m Unit := do
  if ← files.exists? location then
    if !(← files.isDirectory location) then
      throw ⟨.other ("Path exists but is not a directory: " ++ location), []⟩
  else
    Steps.ofFile ("Failed to create directory: " ++ location
      ++ "\n\nCheck directory permissions and path validity") (files.makeDirectories location)

/-- Writes a file in one step. The directory is made where it is missing, and the text goes to a
temporary file first, which then takes the place of the file. -/
def replaceText (files : Files m) (location content : String) : Steps m Unit := do
  match Location.parent? location with
  | some parent => if parent ≠ "" then files.ensureDirectory parent
  | none => pure ()
  let temporary := Location.withExtension "tmp" location
  Steps.ofFile ("Failed to create temp file: " ++ temporary
    ++ "\n\nCheck file permissions and that directory exists")
    (files.writeText temporary content)
  Steps.ofFile ("Failed to rename temp file to: " ++ location) (files.move temporary location)

end Files

end BuildAlignment
