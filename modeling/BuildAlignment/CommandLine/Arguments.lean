import BuildAlignment.Settings.Property

/-!
# Command line arguments

The arguments are options, flags, positional values and the name of a command. Options of all
commands may stand before or behind the command's name.

* `Switch` and `Grammar` say what a command takes.
* `Scan` is where the reading stands, and `Scan.take` takes one argument.
* `Invocation.parse` reads a whole command line.
-/

namespace BuildAlignment.CommandLine

/-- Why a command line is not carried out: it is wrong, or it asks for a text of help. -/
inductive Ending where
  | usage
  | help
  deriving DecidableEq, Repr

inductive ValueKind where
  | text
  | location
  | count
  | property
  deriving DecidableEq, Repr

def ValueKind.accepts : ValueKind → String → Bool
  | .text, _ => true
  | .location, value => value != ""
  | .count, value => (Settings.parseCount? value).isSome
  | .property, value => (parseProperty value).toOption.isSome

inductive SwitchKind where
  | flag
  | help
  | option (value : ValueKind) (repeatable : Bool)
  deriving DecidableEq, Repr

/-- An option or a flag with its names, or a positional value, which has none. -/
structure Switch where
  id : String
  short : Option Char := none
  long : Option String := none
  kind : SwitchKind
  deriving DecidableEq, Repr

structure Grammar where
  switches : List Switch
  positionals : List Switch := []
  required : List String := []
  commands : List String := []

/-! ### The grammar -/

def globalSwitches : List Switch :=
  [{ id := "verbose", short := some 'v', long := some "verbose", kind := .flag },
    { id := "quiet", short := some 'q', long := some "quiet", kind := .flag },
    { id := "config", short := some 'c', long := some "config", kind := .option .location false },
    { id := "help", short := some 'h', long := some "help", kind := .help }]

def commandNames : List String := ["align", "next-version", "show"]

/-- What may stand before the command. -/
def rootGrammar : Grammar :=
  { switches := globalSwitches
      ++ [{ id := "version", short := some 'V', long := some "version", kind := .help }]
    commands := commandNames ++ ["help"] }

def alignGrammar : Grammar :=
  { switches := globalSwitches ++
      [{ id := "build", short := some 'b', long := some "build", kind := .option .location false },
        { id := "output", short := some 'o', long := some "output",
          kind := .option .location false },
        { id := "report", long := some "report", kind := .option .location false },
        { id := "report-json", long := some "report-json", kind := .option .location false },
        { id := "fresh", long := some "fresh", kind := .flag },
        { id := "property", short := some 'D', kind := .option .property true }]
    required := ["build"] }

def nextVersionGrammar : Grammar :=
  { switches := globalSwitches ++
      [{ id := "suffix", long := some "suffix", kind := .option .text false },
        { id := "padding", long := some "padding", kind := .option .count false }]
    positionals := [{ id := "version", kind := .option .text false }]
    required := ["version"] }

def showGrammar : Grammar :=
  { switches := globalSwitches ++
      [{ id := "module", short := some 'm', long := some "module", kind := .option .text false },
        { id := "json", long := some "json", kind := .flag }]
    positionals := [{ id := "model", kind := .option .location false }] }

/-! ### Taking arguments -/

/-- What has been given, in order. A flag has an empty value. -/
abbrev Given := List (String × String)

def Given.has (id : String) (given : Given) : Bool :=
  given.any fun entry => entry.1 == id

def Given.value? (id : String) (given : Given) : Option String :=
  (given.find? fun entry => entry.1 == id).map Prod.snd

def Given.values (id : String) (given : Given) : List String :=
  (given.filter fun entry => entry.1 == id).map Prod.snd

/-- Where the reading of one command's arguments stands. The last switch with a value is held back
until the next one shows that it is complete. -/
structure Scan where
  given : Given := []
  held : Option (Switch × Option String) := none
  /-- How many positional values there have been. -/
  position : Nat := 0
  /-- Whether only positional values follow. -/
  onlyValues : Bool := false

namespace Scan

/-- Whether the last switch still waits for its value. -/
def isWaiting (scan : Scan) : Bool :=
  match scan.held with
  | some (_, none) => true
  | _ => false

/-- Adds a switch with its value. Only a repeatable one may occur twice. -/
def add (scan : Scan) (switch : Switch) (value : String) : Except Ending Scan :=
  match switch.kind with
  | .help => .error .help
  | .flag =>
    if scan.given.has switch.id then .error .usage
    else .ok { scan with given := scan.given ++ [(switch.id, value)] }
  | .option kind repeatable =>
    if (scan.given.has switch.id && !repeatable) || !kind.accepts value then .error .usage
    else .ok { scan with given := scan.given ++ [(switch.id, value)] }

/-- Adds the switch that is held back. It has to have its value by now. -/
def release (scan : Scan) : Except Ending Scan :=
  match scan.held with
  | none => .ok scan
  | some (_, none) => .error .usage
  | some (switch, some value) => { scan with held := none }.add switch value

def takeFlag (scan : Scan) (switch : Switch) : Except Ending Scan :=
  scan.release.bind fun released => released.add switch ""

/-- Takes an option with a value in the same argument, or waits for the next argument. -/
def takeOption (scan : Scan) (switch : Switch) (attached : Option String) :
    Except Ending Scan :=
  scan.release.bind fun released =>
    match attached with
    | some value => released.add switch value
    | none => .ok { released with held := some (switch, none) }

/-- Takes an argument that starts with two hyphens, without them. -/
def takeLong (grammar : Grammar) (scan : Scan) (argument : List Char) : Except Ending Scan :=
  let name := String.ofList (argument.takeWhile (· != '='))
  let attached := match argument.dropWhile (· != '=') with
    | [] => none
    | _ :: value => some (String.ofList value)
  match grammar.switches.find? fun switch => switch.long == some name with
  | none => .error .usage
  | some switch =>
    match switch.kind with
    | .option .. => scan.takeOption switch attached
    | _ => if attached.isSome then .error .usage else scan.takeFlag switch

/-- The value that follows the letter of an option in the same argument. -/
def attachedValue? : List Char → Option String
  | [] => none
  | '=' :: value => some (String.ofList value)
  | value => some (String.ofList value)

/-- Takes the letters of an argument that starts with one hyphen. An option takes the rest of the
letters as its value. -/
def takeShort (grammar : Grammar) (scan : Scan) : List Char → Except Ending Scan
  | [] => .ok scan
  | letter :: rest =>
    match grammar.switches.find? fun switch => switch.short == some letter with
    | none => .error .usage
    | some switch =>
      match switch.kind with
      | .option .. => scan.takeOption switch (attachedValue? rest)
      | _ => (scan.takeFlag switch).bind fun next => next.takeShort grammar rest

def takePositional (grammar : Grammar) (scan : Scan) (argument : String) : Except Ending Scan :=
  match grammar.positionals[scan.position]? with
  | none => .error .usage
  | some switch =>
    scan.release.map fun released =>
      { released with held := some (switch, some argument), position := scan.position + 1 }

/-- Takes one argument. A switch that waits for its value takes anything but another switch. -/
def take (grammar : Grammar) (scan : Scan) (argument : String) : Except Ending Scan :=
  if scan.onlyValues then scan.takePositional grammar argument
  else match argument.toList, scan.held with
    | ['-', '-'], _ => .ok { scan with onlyValues := true }
    | '-' :: '-' :: rest, _ => scan.takeLong grammar rest
    | '-' :: letter :: rest, _ => scan.takeShort grammar (letter :: rest)
    | _, some (switch, none) => .ok { scan with held := some (switch, some argument) }
    | _, _ => scan.takePositional grammar argument

/-- Takes arguments until a command is named, which a waiting switch would take as its value. -/
def takeAll (grammar : Grammar) (scan : Scan) :
    List String → Except Ending (Scan × Option (String × List String))
  | [] => .ok (scan, none)
  | argument :: rest =>
    if !scan.onlyValues && !scan.isWaiting && grammar.commands.contains argument then
      .ok (scan, some (argument, rest))
    else match scan.take grammar argument with
      | .error ending => .error ending
      | .ok next => next.takeAll grammar rest

/-- Checks what was given to a command. The variable of the environment has to be a location when
no other one is given, the two flags for the log exclude each other, and nothing may be missing. -/
def close (grammar : Grammar) (preset : Option String) (scan : Scan) : Except Ending Given :=
  scan.release.bind fun released =>
    let given := released.given
    if (!given.has "config" && preset == some "")
        || (given.has "verbose" && given.has "quiet")
        || !(grammar.required.all fun id => given.has id) then .error .usage
    else .ok given

end Scan

/-! ### Command lines -/

structure AlignArguments where
  build : String
  output : String
  report : Option String
  reportJson : Option String
  fresh : Bool
  properties : List (String × String)
  deriving DecidableEq, Repr

inductive Command where
  | align (arguments : AlignArguments)
  | nextVersion (version suffix : String) (padding : Nat)
  | showModule (model : String) (query : Option String) (json : Bool)
  deriving DecidableEq, Repr

structure Invocation where
  verbose : Bool
  quiet : Bool
  config : Option String
  command : Command
  deriving DecidableEq, Repr

/-- The file that an alignment is written to unless another is named. -/
def modelFile : String := "manipulation.json"

def Command.ofGiven (name : String) (given : Given) : Command :=
  if name = "align" then
    .align
      { build := (given.value? "build").getD ""
        output := (given.value? "output").getD modelFile
        report := given.value? "report"
        reportJson := given.value? "report-json"
        fresh := given.has "fresh"
        properties := (given.values "property").filterMap fun property =>
          (parseProperty property).toOption }
  else if name = "next-version" then
    .nextVersion ((given.value? "version").getD "")
      ((given.value? "suffix").getD Version.defaultSuffix)
      (((given.value? "padding").bind Settings.parseCount?).getD Version.defaultPadding)
  else .showModule ((given.value? "model").getD modelFile) (given.value? "module") (given.has "json")

def grammarOf (name : String) : Grammar :=
  if name = "align" then alignGrammar
  else if name = "next-version" then nextVersionGrammar
  else showGrammar

/-- A request for help names at most one command. -/
def helpEnding : List String → Ending
  | [] => .help
  | [name] => if rootGrammar.commands.contains name then .help else .usage
  | _ => .usage

namespace Invocation

def logLevel? (invocation : Invocation) : Option String :=
  if invocation.verbose then some "debug"
  else if invocation.quiet then some "error"
  else none

/-- Reads a command line. The variable of the environment names the configuration when no argument
does, and of two arguments the one behind the command's name counts. -/
def parse (preset : Option String) (arguments : List String) : Except Ending Invocation :=
  match Scan.takeAll rootGrammar {} arguments with
  | .error ending => .error ending
  | .ok (_, none) => .error .usage
  | .ok (outer, some (name, rest)) =>
    if name = "help" then .error (helpEnding rest)
    else
      match (Scan.takeAll (grammarOf name) {} rest).bind fun inner =>
          inner.1.close (grammarOf name) preset with
      | .error ending => .error ending
      | .ok inner =>
        (outer.close rootGrammar preset).map fun outer =>
          { verbose := outer.has "verbose" || inner.has "verbose"
            quiet := outer.has "quiet" || inner.has "quiet"
            config :=
              ((inner.value? "config").or (outer.value? "config")).or preset
            command := .ofGiven name inner }

end Invocation

end BuildAlignment.CommandLine
