import BuildAlignment.Toml

/-!
# TOML tables under construction

A table may be written in several places, but each kind of place may open it only once.

* `Node` is a value or a table that can still grow, with the kind of place that opened it.
* `insertDotted?` sets a value under a dotted key.
* `openTable?` and `openListTable?` open a table by its header, and `modifyAt?` changes it later.
* `Node.toToml` closes what has been built.
-/

namespace BuildAlignment.Toml

/-- How a table came to be. -/
inductive TableKind where
  /-- It lies on the way to a table with a header. -/
  | implied
  /-- It has a header. -/
  | headed
  /-- It lies on the way of a dotted key. -/
  | dotted
  deriving DecidableEq, Repr

/-- A value, a table that can still grow, or a list of such tables with the newest first. -/
inductive Node where
  | value (value : Toml)
  | table (kind : TableKind) (entries : List (String × Node))
  | tables (items : List (List (String × Node)))

/-- The entries of a table under construction. -/
abbrev Entries := List (String × Node)

namespace Entries

def find? (key : String) : Entries → Option Node
  | [] => none
  | (k, node) :: rest => if k = key then some node else find? key rest

/-- Sets the node of a key in its place, or behind all others. -/
def set (key : String) (node : Node) : Entries → Entries
  | [] => [(key, node)]
  | (k, old) :: rest => if k = key then (k, node) :: rest else (k, old) :: set key node rest

end Entries

/-- Sets a value under a dotted key. The key has to be free, and the tables on its way are new, or
were opened by dotted keys too. One that is only implied, or the newest of a list of tables, may be
passed but not be the last. -/
def insertDotted? (value : Toml) : List String → Entries → Option Entries
  | [], _ => none
  | [key], entries =>
    match Entries.find? key entries with
    | none => some (Entries.set key (.value value) entries)
    | some _ => none
  | key :: next :: keys, entries =>
    match Entries.find? key entries with
    | none =>
      (insertDotted? value (next :: keys) []).map fun found =>
        Entries.set key (.table .dotted found) entries
    | some (.table .dotted inner) =>
      (insertDotted? value (next :: keys) inner).map fun found =>
        Entries.set key (.table .dotted found) entries
    | some (.table .implied inner) =>
      if keys.isEmpty then none
      else (insertDotted? value (next :: keys) inner).map fun found =>
        Entries.set key (.table .implied found) entries
    | some (.tables (newest :: older)) =>
      if keys.isEmpty then none
      else (insertDotted? value (next :: keys) newest).map fun found =>
        Entries.set key (.tables (found :: older)) entries
    | some _ => none

/-- Opens the table of a header. Tables on the way are implied, of a list of tables the newest is
meant, and a table that was only implied may be opened once. -/
def openTable? : List String → Entries → Option Entries
  | [], _ => none
  | [key], entries =>
    match Entries.find? key entries with
    | none => some (Entries.set key (.table .headed []) entries)
    | some (.table .implied inner) => some (Entries.set key (.table .headed inner) entries)
    | some _ => none
  | key :: next :: keys, entries =>
    match Entries.find? key entries with
    | none =>
      (openTable? (next :: keys) []).map fun found =>
        Entries.set key (.table .implied found) entries
    | some (.table kind inner) =>
      (openTable? (next :: keys) inner).map fun found =>
        Entries.set key (.table kind found) entries
    | some (.tables (newest :: older)) =>
      (openTable? (next :: keys) newest).map fun found =>
        Entries.set key (.tables (found :: older)) entries
    | some _ => none

def openListTable? : List String → Entries → Option Entries
  | [], _ => none
  | [key], entries =>
    match Entries.find? key entries with
    | none => some (Entries.set key (.tables [[]]) entries)
    | some (.tables items) => some (Entries.set key (.tables ([] :: items)) entries)
    | some _ => none
  | key :: next :: keys, entries =>
    match Entries.find? key entries with
    | none =>
      (openListTable? (next :: keys) []).map fun found =>
        Entries.set key (.table .implied found) entries
    | some (.table kind inner) =>
      (openListTable? (next :: keys) inner).map fun found =>
        Entries.set key (.table kind found) entries
    | some (.tables (newest :: older)) =>
      (openListTable? (next :: keys) newest).map fun found =>
        Entries.set key (.tables (found :: older)) entries
    | some _ => none

/-- Changes the open table at the end of some keys. -/
def modifyAt? (change : Entries → Option Entries) : List String → Entries → Option Entries
  | [], entries => change entries
  | key :: keys, entries =>
    match Entries.find? key entries with
    | some (.table kind inner) =>
      (modifyAt? change keys inner).map fun found => Entries.set key (.table kind found) entries
    | some (.tables (newest :: older)) =>
      (modifyAt? change keys newest).map fun found =>
        Entries.set key (.tables (found :: older)) entries
    | _ => none

mutual

def Node.toToml : Node → Toml
  | .value value => value
  | .table _ entries => .table (closedEntries entries)
  | .tables items => .list (closedTables items).reverse

def closedEntries : List (String × Node) → List (String × Toml)
  | [] => []
  | (key, node) :: rest => (key, node.toToml) :: closedEntries rest

def closedTables : List (List (String × Node)) → List Toml
  | [] => []
  | entries :: rest => .table (closedEntries entries) :: closedTables rest

end

end BuildAlignment.Toml
