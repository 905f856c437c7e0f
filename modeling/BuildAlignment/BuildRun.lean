import BuildAlignment.BuildDescription
import BuildAlignment.Report
import BuildAlignment.Settings

/-!
# Aligning a described build

The modules of a build register one after another, and the last of them aligns it.

* `BuildDescription.barrier` sets up the barrier of a build.
* `BuildRun` is what has become of some registrations.
* `BuildRun.firstStop?` is why a run gave no result, `BuildRun.result` the tree with its report.
-/

namespace BuildAlignment

def BuildDescription.barrier (build : BuildDescription) (settings : Settings)
    (authority : Option Authority) (previous : Option ModuleTree) :
    Except AlignmentError Barrier :=
  match settings.aligner authority previous with
  | .error error => .error error
  | .ok aligner =>
    match build.toTree with
    | .error error => .error error
    | .ok tree =>
      (Barrier.new tree aligner settings.barrierPolicy).map fun barrier =>
        match previous with
        | some previous => barrier.withPrevious previous
        | none => barrier

structure BuildRun where
  barrier : Barrier
  statuses : List (Except Stop RegistrationStatus)

namespace BuildRun

def ofRegistrations (barrier : Barrier) (registrations : List Registration) : BuildRun :=
  let (barrier, statuses) := barrier.registerAll registrations
  ⟨barrier, statuses⟩

/-- The first answer that is no status. A run that was given up comes before every error. -/
def firstStop? (run : BuildRun) : Option Stop :=
  if run.statuses.any fun status => status matches .error .aborted then some .aborted
  else run.statuses.findSome? fun status =>
    match status with
    | .error stop => some stop
    | .ok _ => none

def completions (run : BuildRun) : Nat :=
  run.statuses.countP fun status => status matches .ok (.complete _)

/-- The finished tree, what the alignment tells about itself, and the report on it. -/
def result (run : BuildRun) (reportNonAligned : Bool) :
    Except AlignmentError (ModuleTree × AlignmentHandle × Report) :=
  match run.barrier.finishedModel, run.barrier.finishedHandle with
  | .ok tree, .ok handle => .ok (tree, handle, .ofTree tree handle.nonAligned reportNonAligned)
  | .error error, _ => .error error
  | _, .error error => .error error

end BuildRun

end BuildAlignment
