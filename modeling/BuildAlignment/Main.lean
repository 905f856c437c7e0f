import BuildAlignment.CommandLine.Commands

/-!
# The program

The outermost layer: files on a disk, the environment, and what is printed.

* `Disk.files` are the file operations on a disk.
* `main` carries out a command line.
-/

namespace BuildAlignment

namespace Disk

def errorOf : IO.Error → FileError
  | .noFileOrDirectory .. => .missing
  | .alreadyExists .. => .alreadyThere
  | .inappropriateType _ code _ => ofCode code
  | .resourceBusy .. => .busy
  | error => .other (toString error)
where
  /-- The cause that a code of the operating system stands for. -/
  ofCode (code : UInt32) : FileError :=
    if code = 21 then .isDirectory else .notDirectory

/-- Carries out an operation and keeps its error as a value. -/
def attempt {α : Type} (operation : IO α) : IO (Except FileError α) := do
  return (← operation.toBaseIO).mapError errorOf

/-- The answer to a question about a location, where what cannot be found is not there. -/
def ask (question : IO Bool) : IO Bool := do
  match ← question.toBaseIO with
  | .ok answer => return answer
  | .error _ => return false

def files : Files IO where
  readText location := attempt (IO.FS.readFile location)
  exists? location := ask do (← IO.FS.realPath location).pathExists
  isDirectory location := ask do (← IO.FS.realPath location).isDir
  makeDirectory location := attempt (IO.FS.createDir location)
  writeText location content := attempt (IO.FS.writeFile location content)
  move source target := attempt (IO.FS.rename source target)

end Disk

def settingsVariable : String := "DEPALIGN_CONFIG"

def usage : String :=
  "usage: depalign [-v | -q] [-c FILE] align -b FILE [-o FILE] [--report FILE] "
    ++ "[--report-json FILE] [--fresh] [-D KEY=VALUE]...\n"
    ++ "       depalign [-v | -q] [-c FILE] next-version VERSION [--suffix TEXT] [--padding N]\n"
    ++ "       depalign [-v | -q] [-c FILE] show [MODEL] [-m MODULE] [--json]\n"

end BuildAlignment

open BuildAlignment in
def main (arguments : List String) : IO UInt32 := do
  let preset ← IO.getEnv settingsVariable
  let outcome ← CommandLine.run Disk.files preset arguments
  match outcome with
  | .ended .help => IO.print usage
  | .ended .usage => IO.eprint usage
  | .ran _ _ =>
    IO.print outcome.output
    IO.eprint outcome.errorOutput
  return outcome.code.toUInt32
