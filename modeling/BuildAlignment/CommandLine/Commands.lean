import BuildAlignment.BuildRun
import BuildAlignment.CommandLine.Arguments
import BuildAlignment.Files
import BuildAlignment.ModuleTree.JsonForm
import BuildAlignment.Settings.TomlForm
import BuildAlignment.VersionTable
import BuildAlignment.Version.Preview

/-!
# Commands

Each command reads its files, does its work, and gives the text it prints.

* `Commands.align` aligns a build and writes the tree and the reports.
* `Commands.showModule` shows one module of a written tree.
* `CommandLine.run` carries out a command line.
-/

namespace BuildAlignment.CommandLine

def settingsFile : String := "depalign.toml"

namespace Commands

variable {m : Type → Type} [Monad m]

/-! ### Reading files -/

def readToml {α : Type} (files : Files m) (read : String → Option α) (location : String) :
    Steps m α := do
  let content ← Steps.ofFile ("Failed to read config file: " ++ location) (files.readText location)
  Steps.orCause .unreadableToml ("Failed to parse config file: " ++ location) (read content)

/-- Reads the settings. A file that is named has to be there, the usual one may be missing. -/
def readSettings (files : Files m) (config : Option String) : Steps m Settings := do
  match config with
  | some location => readToml files Settings.read? location
  | none =>
    if ← files.exists? settingsFile then readToml files Settings.read? settingsFile
    else pure {}

/-- What locations in the settings are relative to. -/
def baseDirectory (config : Option String) : String :=
  (config.bind Files.Location.parent?).getD "."

def readBuild (files : Files m) (location : String) : Steps m BuildDescription :=
  Steps.within ("Cannot load build description: " ++ location)
    (readToml files BuildDescription.read? location)

def readTree (files : Files m) (location : String) : Steps m ModuleTree := do
  let content ← Steps.within
    ("Cannot read alignment model: " ++ location ++ "\n\nRun 'depalign align' to generate it")
    (Steps.ofFile ("Failed to read file: " ++ location) (files.readText location))
  Steps.orCause .unreadableJson ("Invalid alignment model: " ++ location)
    (ModuleTree.read? content)

def readTable (files : Files m) (location : String) : Steps m VersionTable := do
  let entries ← readToml files VersionTable.read? location
  Steps.within ("Invalid translation table: " ++ location)
    (Steps.ofResult (VersionTable.ofEntries entries))

/-- An authority that answers from a file, and fails when the file cannot be read. -/
def fileAuthority (files : Files m) (location : String) : m Authority := do
  match ← (readTable files location).run with
  | .ok table => pure table.authority
  | .error failure => pure fun _ => .error (.authorityUnavailable failure.chain)

/-! ### Aligning -/

/-- The tree that an earlier alignment left at the output, unless it is to be ignored. -/
def readPrevious (files : Files m) (fresh : Bool) (output : String) :
    Steps m (Option ModuleTree) := do
  if fresh then pure none
  else if ← files.exists? output then
    Steps.within ("Existing model " ++ output ++ " is unreadable; remove it or pass --fresh")
      (some <$> readTree files output)
  else pure none

/-- The authority of the settings, if they have one and it is to be asked. -/
def settingsAuthority (files : Files m) (settings : Settings) (base : String) :
    m (Option Authority) := do
  match settings.source, settings.authority with
  | .rest, some location => some <$> fileAuthority files (Files.Location.join base location)
  | _, _ => pure none

/-- The failure of a run that gave no result. -/
def failureOf : Stop → Failure
  | .failed error => .ofError error
  | .aborted => ⟨.other "task panicked", ["Module registration task panicked"]⟩

def summary (settings : Settings) (handle : AlignmentHandle) (total replacements : Nat)
    (output : String) : String :=
  (if handle.skipped then
    "! Dependency source is '" ++ settings.source.display ++ "', no dependencies were aligned\n"
  else "")
  ++ "✓ Aligned " ++ toString total ++ " modules (" ++ toString replacements
  ++ " replacements), project version " ++ handle.newProjectVersion ++ "\n"
  ++ "  Model written to " ++ output ++ "\n"

def writeResults (files : Files m) (arguments : AlignArguments) (tree : ModuleTree)
    (report : Report) : Steps m Unit := do
  Steps.within ("Failed to write alignment model: " ++ arguments.output)
    (files.replaceText arguments.output tree.render)
  if let some location := arguments.report then
    Steps.within ("Failed to write report: " ++ location)
      (files.replaceText location report.renderText)
  if let some location := arguments.reportJson then
    Steps.within ("Failed to write JSON report: " ++ location)
      (files.replaceText location report.renderJson)

/-- Aligns a build. Every module registers, and exactly one registration completes the set. -/
def align (files : Files m) (config : Option String) (arguments : AlignArguments) :
    Steps m String := do
  let read ← readSettings files config
  let (settings, applied) := read.applyProperties arguments.properties
  Steps.ofResult applied
  Steps.ofResult settings.validate
  let build ← readBuild files arguments.build
  let previous ← readPrevious files arguments.fresh arguments.output
  let authority ← liftM (settingsAuthority files settings (baseDirectory config))
  let barrier ← Steps.ofResult (build.barrier settings authority previous)
  let registrations ← Steps.ofResult build.registrations
  let run := BuildRun.ofRegistrations barrier registrations
  if let some stop := run.firstStop? then throw (failureOf stop)
  if run.completions ≠ 1 then
    throw ⟨.other ("Expected exactly one registration to complete the alignment, saw "
      ++ toString run.completions), []⟩
  let (tree, handle, report) ← Steps.ofResult (run.result settings.reportNonAligned)
  writeResults files arguments tree report
  return summary settings handle registrations.length report.replacementCount arguments.output

/-! ### Showing -/

def moduleJson (path : String) (info : ModuleInfo) : Json :=
  .object
    [("alignedDependencies",
        .object (info.aligned.map fun entry => (entry.1, .text entry.2.display))),
      ("group", .text info.group),
      ("name", .text info.name),
      ("originalVersion", .ofText? info.formerVersion),
      ("path", .text path),
      ("version", .ofText? info.version)]

def moduleText (path : String) (info : ModuleInfo) : String :=
  path ++ " " ++ info.group ++ ":" ++ info.name ++ "\n"
    ++ "  version: " ++ info.version.getD "unassigned"
    ++ " (was " ++ info.formerVersion.getD "unspecified" ++ ")\n"
    ++ if info.aligned.isEmpty then "  no aligned dependencies\n"
      else "  aligned dependencies:\n" ++ String.join (info.aligned.map fun entry =>
        "    " ++ entry.1 ++ " -> " ++ entry.2.display ++ "\n")

/-- Shows one module of a written tree, the root unless another is asked for. -/
def showModule (files : Files m) (model : String) (query : Option String) (json : Bool) :
    Steps m String := do
  let tree ← readTree files model
  let path ← Steps.ofResult (tree.resolve (query.getD ModulePath.root))
  let found ← Steps.ofResult (tree.find path)
  return if json then (moduleJson path found.info).render ++ "\n" else moduleText path found.info

end Commands

inductive Outcome where
  /-- It was not carried out. -/
  | ended (ending : Ending)
  /-- It was carried out and printed a text, or failed. -/
  | ran (logLevel : Option String) (result : Except Failure String)

namespace Outcome

def code : Outcome → Nat
  | ended .help => 0
  | ended .usage => 2
  | ran _ (.ok _) => 0
  | ran _ (.error _) => 1

def output : Outcome → String
  | ran _ (.ok text) => text
  | _ => ""

def errorOutput : Outcome → String
  | ran _ (.error failure) => (Advice.ofFailure failure).output
  | _ => ""

end Outcome

def runCommand {m : Type → Type} [Monad m] (files : Files m) (config : Option String) :
    Command → Steps m String
  | .align arguments => Commands.align files config arguments
  | .nextVersion version suffix padding =>
    Steps.ofResult ((Version.preview version suffix padding).map (· ++ "\n"))
  | .showModule model query json => Commands.showModule files model query json

/-- Carries out a command line. The variable of the environment names the settings file when no
argument does. -/
def run {m : Type → Type} [Monad m] (files : Files m) (preset : Option String)
    (arguments : List String) : m Outcome := do
  match Invocation.parse preset arguments with
  | .error ending => return .ended ending
  | .ok invocation =>
    let result ← (runCommand files invocation.config invocation.command).run
    return .ran invocation.logLevel? result

end BuildAlignment.CommandLine
