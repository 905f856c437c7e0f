import BuildAlignment.Barrier
import BuildAlignment.Json.Printer

/-!
# Change reports

A report lists for every module what an alignment changed.

* `Report.ofTree` collects the changes of a finished tree.
* `Report.renderText` writes them line by line.
* `Report.renderJson` writes them as JSON.
-/

namespace BuildAlignment

structure CoordinateChange where
  former : String
  current : String
  deriving DecidableEq, Repr

namespace CoordinateChange

/-- A module in a version, which is left out when it says nothing. -/
def written (info : ModuleInfo) (version : Option String) : String :=
  Coordinate.display ⟨info.group, info.name, version.getD ""⟩

def ofInfo (info : ModuleInfo) : CoordinateChange :=
  ⟨written info info.formerVersion, written info info.version⟩

def isChange (change : CoordinateChange) : Bool :=
  change.former != change.current

def toJson (change : CoordinateChange) : Json :=
  .object [("originalGAV", .text change.former), ("gav", .text change.current)]

end CoordinateChange

structure ModuleReport where
  info : ModuleInfo
  nonAligned : List Coordinate

namespace ModuleReport

def lines (report : ModuleReport) : List String :=
  let info := report.info
  ["------------------- project " ++ info.group ++ ":" ++ info.name]
    ++ (if (CoordinateChange.ofInfo info).isChange then
        ["\tProject version : " ++ info.formerVersion.getD "" ++ " --> "
          ++ info.version.getD ""]
      else [])
    ++ (info.aligned.map fun entry =>
        "\tDependencies : " ++ entry.1 ++ " --> " ++ entry.2.display)
    ++ (report.nonAligned.map fun coordinate =>
        "\tNon-Aligned Dependencies : " ++ coordinate.display)

/-- The JSON form. The dependencies are always there, what was not aligned only if there is any. -/
def toJson (report : ModuleReport) : Json :=
  .object <|
    [("gav", (CoordinateChange.ofInfo report.info).toJson),
      ("dependencies",
        .object (report.info.aligned.map fun entry => (entry.1, .text entry.2.display)))]
      ++ if report.nonAligned.isEmpty then []
        else [("nonAligned",
          .list (report.nonAligned.map fun coordinate => .text coordinate.display))]

end ModuleReport

structure Report where
  change : CoordinateChange
  modules : List ModuleReport

namespace Report

/-- The report on a module at a path. -/
def moduleReport? (tree : ModuleTree) (nonAligned : Keyed (List Coordinate)) (path : String) :
    Option ModuleReport :=
  (tree.find path).toOption.map fun found =>
    { info := found.info, nonAligned := (nonAligned.find? path).getD [] }

/-- The report on a tree. What was not aligned is told only where that is wanted. -/
def ofTree (tree : ModuleTree) (nonAligned : Keyed (List Coordinate)) (reportNonAligned : Bool) :
    Report :=
  { change := .ofInfo tree.info
    modules := tree.paths.filterMap
      (moduleReport? tree (if reportNonAligned then nonAligned else [])) }

def replacementCount (report : Report) : Nat :=
  (report.modules.flatMap fun entry => entry.info.aligned).length

def renderText (report : Report) : String :=
  String.join ((report.modules.flatMap ModuleReport.lines).map (· ++ "\n"))

def renderJson (report : Report) : String :=
  (Json.object [("gav", report.change.toJson),
    ("modules", .list (report.modules.map ModuleReport.toJson))]).render ++ "\n"

end Report

end BuildAlignment
