import BuildAlignment.Rule

/-!
# Alignment responses

What an alignment knows about new versions once an authority has answered.

* `NewVersions` is the answer of an authority.
* `Response` adds override layers, pinned coordinates and the version of the build.
* `Response.alignedVersion?` is the version that a dependency of a module gets.
-/

namespace BuildAlignment

/-- New versions by coordinate. The first entry of a coordinate counts. -/
abbrev NewVersions := List (Coordinate × String)

namespace NewVersions

def find? (coordinate : Coordinate) : NewVersions → Option String
  | [] => none
  | (known, version) :: rest => if known = coordinate then some version else find? coordinate rest

def set (coordinate : Coordinate) (version : String) : NewVersions → NewVersions
  | [] => [(coordinate, version)]
  | (known, old) :: rest =>
    if known = coordinate then (known, version) :: rest
    else (known, old) :: set coordinate version rest

def among (asked : List Coordinate) (versions : NewVersions) : NewVersions :=
  versions.filter fun entry => asked.contains entry.1

end NewVersions

abbrev OverrideLayer := List (Rule × String)

/-- The value of the first rule that speaks about a dependency and gives a version. -/
def OverrideLayer.version? (coordinate owner : Coordinate) (layer : OverrideLayer) :
    Option String :=
  (layer.find? fun entry => entry.2 != "" && entry.1.covers coordinate owner).map Prod.snd

structure Response where
  versions : NewVersions := []
  layers : List OverrideLayer := []
  pinned : List Coordinate := []
  rawProjectVersion : Option String := none
  newProjectVersion : Option String := none

namespace Response

/-- The response to an answer. The version of the build is the one given for its first coordinate,
unless that is blank. -/
def ofVersions (versions : NewVersions) (projects : List Coordinate) : Response :=
  { versions
    rawProjectVersion := (projects.head?.bind fun project => versions.find? project).filter
      fun version => !Text.isBlank version }

def empty : Response := {}

/-- The version that the override layers give, the newest layer first. -/
def overriddenVersion? (response : Response) (coordinate owner : Coordinate) : Option String :=
  response.layers.reverse.findSome? fun layer => layer.version? coordinate owner

/-- The version that the authority gives. A blank one counts as none. -/
def answeredVersion? (response : Response) (coordinate : Coordinate) : Option String :=
  (response.versions.find? coordinate).filter fun version => !Text.isBlank version

/-- The version of a pinned coordinate is its own. -/
def pinnedVersion? (response : Response) (coordinate : Coordinate) : Option String :=
  if response.pinned.contains coordinate then some coordinate.version else none

/-- The version that a dependency of an owner gets: an override, else the answer, else its own
version if it is pinned. -/
def alignedVersion? (response : Response) (coordinate owner : Coordinate) : Option String :=
  match response.overriddenVersion? coordinate owner with
  | some version => some version
  | none =>
    match response.answeredVersion? coordinate with
    | some version => some version
    | none => response.pinnedVersion? coordinate

def pushLayer (response : Response) (layer : OverrideLayer) : Response :=
  { response with layers := response.layers ++ [layer] }

def pin (response : Response) (coordinates : List Coordinate) : Response :=
  { response with pinned := response.pinned ++ coordinates }

def setProjectVersion (response : Response) (version : String) : Response :=
  { response with newProjectVersion := some version }

end Response

end BuildAlignment
