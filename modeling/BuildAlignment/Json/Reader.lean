import BuildAlignment.Json
import BuildAlignment.Json.Escape
import BuildAlignment.Json.Token

/-!
# Reading JSON

The tokens of a text are taken one after another, and what is still open waits on a stack.

* `Frame` is an object or a list that is still open, `State` is where the reading stands.
* `State.step?` takes one token.
* `Json.read?` reads a text that holds one value and nothing else.
-/

namespace BuildAlignment.Json

/-- A list or an object that is still open, with the newest part first. A member name that cannot
be read is missing. -/
inductive Frame where
  | list (items : List Json)
  | object (members : List (Option String × Json))
  | member (members : List (Option String × Json)) (name : Option String)

/-- Where the reading stands: before a value, behind an opening mark, before a member name, before
its colon, behind a value, or at the end. -/
inductive State where
  | value (stack : List Frame)
  | firstItem (stack : List Frame)
  | firstName (stack : List Frame)
  | nextName (members : List (Option String × Json)) (stack : List Frame)
  | colon (stack : List Frame)
  | behind (stack : List Frame)
  | finished (value : Json)

/-- The object of some members, newest first. One name that cannot be read spoils it. -/
def objectOf (members : List (Option String × Json)) : Json :=
  match members.reverse.mapM fun member => member.1.map fun name => (name, member.2) with
  | some named => .object named
  | none => .garbled

def ofBare? (written : List Char) : Option Json :=
  if written = "null".toList then some .null
  else if written = "true".toList then some (.bool true)
  else if written = "false".toList then some (.bool false)
  else if isNumber written then some (.number written)
  else none

def ofQuoted? (written : List Char) : Option Json :=
  match decode written with
  | .text value => some (.text value)
  | .garbled => some .garbled
  | .malformed => none

namespace State

/-- A value is complete and goes into what is open. -/
def complete (value : Json) : List Frame → State
  | [] => finished value
  | .list items :: stack => behind (.list (value :: items) :: stack)
  | .member members name :: stack => behind (.object ((name, value) :: members) :: stack)
  | .object members :: stack => behind (.object members :: stack)

/-- A token where a value has to start. -/
def startValue? (stack : List Frame) : Token → Option State
  | .openObject => some (firstName stack)
  | .openList => some (firstItem stack)
  | .quoted written => (ofQuoted? written).map fun value => complete value stack
  | .bare written => (ofBare? written).map fun value => complete value stack
  | _ => none

/-- A token where a member name has to stand. -/
def takeName? (members : List (Option String × Json)) (stack : List Frame) :
    Token → Option State
  | .quoted written =>
    match decode written with
    | .text name => some (colon (.member members (some name) :: stack))
    | .garbled => some (colon (.member members none :: stack))
    | .malformed => none
  | _ => none

def step? : State → Token → Option State
  | value stack, token => startValue? stack token
  | firstItem stack, .closeList => some (complete (.list []) stack)
  | firstItem stack, token => startValue? (.list [] :: stack) token
  | firstName stack, .closeObject => some (complete (.object []) stack)
  | firstName stack, token => takeName? [] stack token
  | nextName members stack, token => takeName? members stack token
  | colon stack, .colon => some (value stack)
  | behind (.list items :: stack), .comma => some (value (.list items :: stack))
  | behind (.list items :: stack), .closeList =>
    some (complete (.list items.reverse) stack)
  | behind (.object members :: stack), .comma => some (nextName members stack)
  | behind (.object members :: stack), .closeObject => some (complete (objectOf members) stack)
  | _, _ => none

end State

def read? (source : String) : Option Json :=
  match (Token.scan? source.toList).bind fun tokens => tokens.foldlM State.step? (.value []) with
  | some (.finished value) => some value
  | _ => none

end BuildAlignment.Json
