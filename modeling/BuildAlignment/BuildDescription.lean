import BuildAlignment.Barrier
import BuildAlignment.Toml.Reader

/-!
# Build descriptions

A build description lists the modules of a build with their dependencies.

* `BuildDescription` is a root module and the other modules in the order in which they are listed.
* `BuildDescription.toTree` makes the module tree, parents before children.
* `BuildDescription.registrations` makes what the modules hand in, root first.
* `BuildDescription.read?` reads the TOML form.
-/

namespace BuildAlignment

structure DependencyDescription where
  declared : String
  resolved : Option String := none
  deriving DecidableEq, Repr

structure ModuleDescription where
  path : String := ""
  name : Option String := none
  group : Option String := none
  version : Option String := none
  dependencies : List DependencyDescription := []
  deriving DecidableEq, Repr

structure BuildDescription where
  root : ModuleDescription
  modules : List ModuleDescription := []
  deriving DecidableEq, Repr

/-! ### Dependencies -/

/-- A dependency that is only declared resolves to itself, unless it is dynamic. -/
def Dependency.ofDeclared (declared : Coordinate) : Dependency :=
  if (Dependency.exact declared).isDynamic then ⟨declared, none⟩ else Dependency.exact declared

def DependencyDescription.toDependency (description : DependencyDescription) :
    Except AlignmentError Dependency :=
  match Coordinate.parse description.declared, description.resolved with
  | .error error, _ => .error error
  | .ok declared, none => .ok (.ofDeclared declared)
  | .ok declared, some resolved =>
    (Coordinate.parse resolved).map fun found => ⟨declared, some found⟩

/-- The dependencies of a module, up to the first that is no coordinate. -/
def ModuleDescription.toDependencies (description : ModuleDescription) :
    Except AlignmentError (List Dependency) :=
  description.dependencies.mapM DependencyDescription.toDependency

namespace BuildDescription

/-! ### What is not given -/

def rootName (build : BuildDescription) : String := build.root.name.getD "root"

def rootGroup (build : BuildDescription) : String := build.root.group.getD ""

/-- The name of a module is the last segment of its path unless it is given. -/
def nameOf (description : ModuleDescription) : String :=
  description.name.getD ((Text.fields ':' description.path).getLast?.getD "")

def groupOf (build : BuildDescription) (description : ModuleDescription) : String :=
  description.group.getD build.rootGroup

def versionOf (build : BuildDescription) (description : ModuleDescription) : String :=
  description.version.getD (build.root.version.getD "")

/-! ### The tree and the registrations -/

/-- The modules in the order of their depth, and as they are listed within one depth. -/
def byDepth (build : BuildDescription) : List ModuleDescription :=
  build.modules.mergeSort fun first second =>
    Text.count ':' first.path ≤ Text.count ':' second.path

/-- The module tree, without versions. -/
def toTree (build : BuildDescription) : Except AlignmentError ModuleTree :=
  build.byDepth.foldlM
    (fun tree description =>
      tree.add description.path (.new (nameOf description) (build.groupOf description)))
    (.single (.new build.rootName build.rootGroup))

def rootRegistration (build : BuildDescription) : Except AlignmentError Registration :=
  build.root.toDependencies.map fun dependencies =>
    { module := ModulePath.root
      coordinate := ⟨build.rootGroup, build.rootName, build.versionOf build.root⟩
      dependencies }

def registration (build : BuildDescription) (description : ModuleDescription) :
    Except AlignmentError Registration :=
  description.toDependencies.map fun dependencies =>
    { module := description.path
      coordinate :=
        ⟨build.groupOf description, nameOf description, build.versionOf description⟩
      dependencies }

def registrations (build : BuildDescription) : Except AlignmentError (List Registration) :=
  match build.rootRegistration with
  | .error error => .error error
  | .ok root => (build.modules.mapM build.registration).map (root :: ·)

end BuildDescription

/-! ### The TOML form -/

/-- A dependency is a text, or a table with a declared and perhaps a resolved text. Other keys of
the table do not matter, as long as their values can be kept until both forms have been tried. -/
def DependencyDescription.ofToml? : Toml → Option DependencyDescription
  | .text declared => some { declared }
  | .table entries => do
    guard (Toml.table entries).isKeepable
    let declared ← (Toml.lookup? "declared" entries).bind Toml.text?
    let resolved ← Toml.optional? Toml.text? entries "resolved"
    return { declared, resolved }
  | _ => none

def ModuleDescription.dependencies? (value : Toml) : Option (List DependencyDescription) :=
  value.items?.bind fun items => items.mapM DependencyDescription.ofToml?

def ModuleDescription.keys : List String :=
  ["path", "name", "group", "version", "dependencies"]

def ModuleDescription.ofEntries? (entries : List (String × Toml)) : Option ModuleDescription := do
  guard (Toml.onlyKnown keys entries)
  let path ← Toml.withDefault? Toml.text? "" entries "path"
  let name ← Toml.optional? Toml.text? entries "name"
  let group ← Toml.optional? Toml.text? entries "group"
  let version ← Toml.optional? Toml.text? entries "version"
  let dependencies ← Toml.withDefault? dependencies? [] entries "dependencies"
  return { path, name, group, version, dependencies }

/-- A module is a table, or a list that begins with the values of its keys in order. -/
def ModuleDescription.ofToml? : Toml → Option ModuleDescription
  | .table entries => ofEntries? entries
  | .list items => ofEntries? (keys.zip items)
  | _ => none

namespace BuildDescription

def keys : List String := ["root", "modules"]

def modules? (value : Toml) : Option (List ModuleDescription) :=
  value.items?.bind fun items => items.mapM ModuleDescription.ofToml?

def ofEntries? (entries : List (String × Toml)) : Option BuildDescription := do
  guard (Toml.onlyKnown keys entries)
  let root ← (Toml.lookup? "root" entries).bind ModuleDescription.ofToml?
  let modules ← Toml.withDefault? modules? [] entries "modules"
  return { root, modules }

def read? (source : String) : Option BuildDescription :=
  (Toml.read? source).bind ofEntries?

end BuildDescription

end BuildAlignment
