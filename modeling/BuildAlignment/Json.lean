/-!
# JSON values

A JSON value keeps its members in the order in which they were written, and a member may occur
twice.

* `Json` is the type of values.
* `Json.garbled` stands for a text with an escape that names no character. Such a text can be
  skipped but not read.
-/

namespace BuildAlignment

inductive Json where
  | null
  | bool (value : Bool)
  /-- A number, as it was written. -/
  | number (digits : List Char)
  | text (value : String)
  /-- A text, or an object with a member name, that holds half a surrogate pair. -/
  | garbled
  | list (items : List Json)
  | object (members : List (String × Json))

namespace Json

def ofText? : Option String → Json
  | some value => text value
  | none => null

end Json

end BuildAlignment
