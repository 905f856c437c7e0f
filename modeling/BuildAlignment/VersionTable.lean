import BuildAlignment.Alignment.Aligner
import BuildAlignment.Keyed
import BuildAlignment.Toml.Reader

/-!
# Version tables

An authority can be a table of versions by coordinate.

* `VersionTable.ofEntries` checks the keys of a table, in code point order.
* `VersionTable.read?` reads the TOML form.
* `VersionTable.authority` answers with the entries that were asked about.
-/

namespace BuildAlignment

/-- New versions by coordinate, each coordinate once. -/
structure VersionTable where
  versions : NewVersions := []
  deriving DecidableEq, Repr

namespace VersionTable

/-- Adds an entry under a key, which has to be a coordinate with a version. -/
def insertKey (table : VersionTable) (key version : String) :
    Except AlignmentError VersionTable :=
  match Coordinate.parse key with
  | .error error => .error error
  | .ok coordinate =>
    if coordinate.version = "" then .error (.configuration (.keyWithoutVersion key))
    else .ok ⟨table.versions.set coordinate version⟩

/-- The table of entries in key order. Of two keys for one coordinate the later one counts. -/
def ofEntries (entries : Keyed String) : Except AlignmentError VersionTable :=
  entries.foldlM (fun table entry => table.insertKey entry.1 entry.2) {}

/-- The table of the TOML form that holds the entries. -/
def tableKey : String := "versions"

/-- The entries of the TOML form stand in one table. What other keys hold does not matter, as long
as it can be read over. -/
def ofToml? (entries : List (String × Toml)) : Option (Keyed String) :=
  if entries.all fun entry => entry.1 == tableKey || entry.2.isPassable then
    Toml.withDefault? (fun value => value.textEntries?.map Keyed.ofEntries) [] entries tableKey
  else none

def read? (source : String) : Option (Keyed String) :=
  (Toml.read? source).bind ofToml?

/-- Answers with the entries that were asked about. -/
def authority (table : VersionTable) : Authority := fun asked =>
  .ok (table.versions.among asked)

end VersionTable

end BuildAlignment
