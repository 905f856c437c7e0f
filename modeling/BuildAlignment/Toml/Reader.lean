import BuildAlignment.Toml.Document
import BuildAlignment.Toml.Token

/-!
# Reading TOML

The tokens of a text are taken one after another.

* `KeyPart` and `keyOf?` read dotted keys.
* `ValueState` is where the reading of a value stands, and `ValueState.step?` takes one token.
* `Place` is where the reading of a document stands, and `Reading.step?` takes one token.
* `Toml.read?` reads a document into the entries of its root table.
-/

namespace BuildAlignment.Toml

/-! ### Keys -/

/-- A name or a dot of a dotted key. -/
inductive KeyPart where
  | name (value : String)
  | dot
  deriving DecidableEq, Repr

def isKeyChar (c : Char) : Bool :=
  Token.isBareChar c && c != '+' && c != ':' && c != '.'

/-- The parts of a run of bare characters. -/
def bareParts : List (List Char) → List KeyPart
  | [] => []
  | [piece] => if piece.isEmpty then [] else [.name (String.ofList piece)]
  | piece :: rest =>
    if piece.isEmpty then .dot :: bareParts rest
    else .name (String.ofList piece) :: .dot :: bareParts rest

def keyParts? : Token → Option (List KeyPart)
  | .blank _ => some []
  | .text value => some [.name value]
  | .bare written =>
    if written.all fun c => isKeyChar c || c == '.' then some (bareParts (written.splitOn '.'))
    else none
  | _ => none

/-- The names of a key, which dots have to stand between. -/
def namesOf? : List KeyPart → Option (List String)
  | [.name value] => some [value]
  | .name value :: .dot :: rest => (namesOf? rest).map (value :: ·)
  | _ => none

/-- How deep values may lie in each other, and how many names a key may have. -/
def maxDepth : Nat := 80

/-- The names of a key that is not too long. -/
def keyOf? (parts : List KeyPart) : Option (List String) :=
  (namesOf? parts).filter fun names => names.length ≤ maxDepth

/-! ### Values -/

/-- A list or an inline table that is still open. A table waits with the key of its next value. -/
inductive Frame where
  | list (items : List Toml)
  | table (entries : Entries)
  | entry (entries : Entries) (key : List String)

/-- Where the reading of a value stands: before a value, behind an opening bracket, behind a comma
of a list, behind a value, in a key, or at the end. -/
inductive ValueState where
  | start (stack : List Frame)
  | item (stack : List Frame)
  | behind (stack : List Frame)
  | key (first : Bool) (parts : List KeyPart) (entries : Entries) (stack : List Frame)
  | finished (value : Toml)

namespace ValueState

def complete? (value : Toml) : List Frame → Option ValueState
  | [] => some (finished value)
  | .list items :: stack => some (behind (.list (value :: items) :: stack))
  | .entry entries names :: stack =>
    (insertDotted? value names entries).map fun found => behind (.table found :: stack)
  | .table _ :: _ => none

/-- Goes into a list or a table, unless that is too deep. -/
def goInto? (state : ValueState) (stack : List Frame) : Option ValueState :=
  if stack.length < maxDepth then some state else none

def startValue? (stack : List Frame) : Token → Option ValueState
  | .openList => goInto? (item (.list [] :: stack)) stack
  | .openTable => goInto? (key true [] [] stack) stack
  | .text value => complete? (.text value) stack
  | .lines value => complete? (.text value) stack
  | .bare written => (ofBare? written).bind fun value => complete? value stack
  | .blank _ => some (start stack)
  | _ => none

/-- Takes one token. Lines may end inside a list, but not inside an inline table. -/
def step? : ValueState → Token → Option ValueState
  | start stack, token => startValue? stack token
  | item stack, .newLine => some (item stack)
  | item stack, .blank _ => some (item stack)
  | item (.list items :: stack), .closeList => complete? (.list items.reverse) stack
  | item stack, token => startValue? stack token
  | behind stack, .blank _ => some (behind stack)
  | behind (.list items :: stack), .newLine => some (behind (.list items :: stack))
  | behind (.list items :: stack), .comma => some (item (.list items :: stack))
  | behind (.list items :: stack), .closeList => complete? (.list items.reverse) stack
  | behind (.table entries :: stack), .comma => some (key false [] entries stack)
  | behind (.table entries :: stack), .closeTable =>
    complete? (.table (closedEntries entries)) stack
  | key first parts entries stack, token =>
    match token with
    | .closeTable =>
      if first && parts.isEmpty then complete? (.table (closedEntries entries)) stack else none
    | .equals => (keyOf? parts).map fun names => start (.entry entries names :: stack)
    | token => (keyParts? token).map fun more => key first (parts ++ more) entries stack
  | _, _ => none

end ValueState

/-! ### Documents -/

/-- Where the reading of a document stands. -/
inductive Place where
  | lineStart
  | lineEnd
  /-- Behind the first bracket of a header. -/
  | headerStart
  | header (ofList : Bool) (parts : List KeyPart)
  /-- Behind the first closing bracket of a header with two. -/
  | headerClose (parts : List KeyPart)
  | key (parts : List KeyPart)
  | value (names : List String) (state : ValueState)

/-- The root table so far, the keys of the open table, and the place. -/
structure Reading where
  root : Entries := []
  current : List String := []
  place : Place := .lineStart

namespace Reading

def openHeader? (reading : Reading) (ofList : Bool) (parts : List KeyPart) : Option Reading :=
  match keyOf? parts with
  | none => none
  | some names =>
    let opened := if ofList then openListTable? names reading.root
      else openTable? names reading.root
    opened.map fun root => { root, current := names, place := .lineEnd }

/-- Goes on with a value, and sets it under its key when it is complete. -/
def takeValue? (reading : Reading) (names : List String) : ValueState → Option Reading
  | .finished value =>
    (modifyAt? (insertDotted? value names) reading.current reading.root).map fun root =>
      { reading with root, place := .lineEnd }
  | state => some { reading with place := .value names state }

def step? (reading : Reading) (token : Token) : Option Reading :=
  match reading.place with
  | .lineStart =>
    match token with
    | .newLine => some reading
    | .blank _ => some reading
    | .openList => some { reading with place := .headerStart }
    | token => (keyParts? token).map fun parts => { reading with place := .key parts }
  | .lineEnd =>
    match token with
    | .newLine => some { reading with place := .lineStart }
    | .blank _ => some reading
    | _ => none
  | .headerStart =>
    match token with
    | .openList => some { reading with place := .header true [] }
    | token => (keyParts? token).map fun parts => { reading with place := .header false parts }
  | .header ofList parts =>
    match token with
    | .closeList =>
      if ofList then some { reading with place := .headerClose parts }
      else reading.openHeader? false parts
    | token =>
      (keyParts? token).map fun more => { reading with place := .header ofList (parts ++ more) }
  | .headerClose parts =>
    match token with
    | .closeList => reading.openHeader? true parts
    | _ => none
  | .key parts =>
    match token with
    | .equals =>
      (keyOf? parts).map fun names => { reading with place := .value names (.start []) }
    | token => (keyParts? token).map fun more => { reading with place := .key (parts ++ more) }
  | .value names state => (state.step? token).bind (reading.takeValue? names)

def isComplete (reading : Reading) : Bool :=
  match reading.place with
  | .lineStart => true
  | .lineEnd => true
  | _ => false

end Reading

def read? (source : String) : Option (List (String × Toml)) :=
  match (Token.scan? source.toList).bind fun tokens => tokens.foldlM Reading.step? {} with
  | some reading => if reading.isComplete then some (closedEntries reading.root) else none
  | none => none

end BuildAlignment.Toml
