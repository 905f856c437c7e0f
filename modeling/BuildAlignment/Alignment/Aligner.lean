import BuildAlignment.Alignment.Adjustment
import BuildAlignment.Alignment.Exclusion

/-!
# Aligning a request

An aligner takes a request through its exclusions, asks an authority at most once, and takes the
answer through its adjustments.

* `DependencySource` says whether an authority is asked.
* `Authority` answers a list of coordinates with new versions.
* `Aligner.align` runs the whole way, and `AlignmentRun` keeps what the authority was asked.
-/

namespace BuildAlignment

inductive DependencySource where
  | rest
  | disabled
  deriving DecidableEq, Repr

namespace DependencySource

def display : DependencySource → String
  | rest => "rest"
  | disabled => "none"

def ofDisplay? (text : String) : Option DependencySource :=
  if text = "rest" then some rest
  else if text = "none" then some disabled
  else none

/-- Reads a source. Blank characters around it and the case of its letters do not count. -/
def parse (text : String) : Except AlignmentError DependencySource :=
  let folded := Text.asciiLower (Text.trim text)
  match ofDisplay? folded with
  | some source => .ok source
  | none => .error (.configuration (.unknownSource folded))

theorem ofDisplay?_display (source : DependencySource) :
    ofDisplay? source.display = some source := by
  cases source <;> decide

end DependencySource

/-- Answers a list of coordinates with new versions, or fails. -/
abbrev Authority := List Coordinate → Except AlignmentError NewVersions

/-- An authority with the changes before and after its answer, each list in ascending order. -/
structure Aligner where
  authority : Option Authority
  source : DependencySource
  exclusions : List Exclusion := []
  adjustments : List Adjustment := []

structure Alignment where
  request : Request
  response : Response

inductive AlignmentOutcome where
  | aligned (alignment : Alignment)
  /-- The source is disabled, so no authority was asked. -/
  | skipped (alignment : Alignment)
  | failed (error : AlignmentError)
  | aborted

/-- An outcome, with what the authority was asked on the way. -/
structure AlignmentRun where
  asked : Option (List Coordinate)
  outcome : AlignmentOutcome

namespace Aligner

/-- An aligner without changes. A source that asks an authority needs one. -/
def new (authority : Option Authority) (source : DependencySource) :
    Except AlignmentError Aligner :=
  if source = .rest && authority.isNone then .error .missingAuthority
  else .ok { authority, source }

def withExclusion (aligner : Aligner) (exclusion : Exclusion) : Aligner :=
  { aligner with exclusions := insertOrdered Exclusion.order exclusion aligner.exclusions }

def withAdjustment (aligner : Aligner) (adjustment : Adjustment) : Aligner :=
  { aligner with adjustments := insertOrdered Adjustment.order adjustment aligner.adjustments }

/-- The request that is left after all exclusions. -/
def restricted (aligner : Aligner) (request : Request) : Request :=
  aligner.exclusions.foldl (fun current exclusion => exclusion.apply current) request

def adjusted? (aligner : Aligner) (request : Request) (response : Response) : Option Response :=
  aligner.adjustments.foldlM (fun current adjustment => adjustment.applied? request current) response

/-- The reason that is told when an authority fails. -/
def failureReason : AlignmentError → String
  | .authorityUnavailable reason => reason
  | error => error.message

def outcomeOf (aligner : Aligner) (wrap : Alignment → AlignmentOutcome) (request : Request)
    (response : Response) : AlignmentOutcome :=
  match aligner.adjusted? request response with
  | some adjusted => wrap ⟨request, adjusted⟩
  | none => .aborted

/-- Aligns a request. The authority is asked at most once, and its failure is the outcome. -/
def align (aligner : Aligner) (incoming : Request) : AlignmentRun :=
  let request := aligner.restricted incoming
  match aligner.source, aligner.authority with
  | .disabled, _ => ⟨none, aligner.outcomeOf .skipped request .empty⟩
  | .rest, none => ⟨none, .failed .missingAuthority⟩
  | .rest, some authority =>
    let asked := request.authorityCoordinates
    match authority asked with
    | .error error => ⟨some asked, .failed (.authorityUnavailable (failureReason error))⟩
    | .ok versions =>
      ⟨some asked,
        aligner.outcomeOf .aligned request (.ofVersions versions request.projects)⟩

end Aligner

end BuildAlignment
