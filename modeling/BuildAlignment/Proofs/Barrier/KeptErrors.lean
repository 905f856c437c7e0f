import BuildAlignment.Proofs.Barrier.Admission
import BuildAlignment.Proofs.Barrier.Publishing

/-!
# The errors that fail a build

A barrier keeps the error that a build failed with and tells it again. Some errors change when they
are kept, but none of those can fail a build.

* `AlignmentError.FailsBuild` lists the errors that can.
* `AlignmentError.FailsBuild.restate_eq`: they are kept as they are.
* `failsBuild_of_admitted`, `Barrier.failsBuild_of_publish`: no others come up, neither from a
  registration nor from an alignment.
-/

namespace BuildAlignment

namespace AlignmentError

/-- The errors that can fail a build. -/
inductive FailsBuild : AlignmentError → Prop
  | unresolvableDependency (path dependency : String) :
      FailsBuild (.unresolvableDependency path dependency)
  | noVersion : FailsBuild (.configuration .noVersion)
  | noRootGroup : FailsBuild (.configuration .noRootGroup)
  | missingAuthority : FailsBuild .missingAuthority
  | authorityUnavailable (reason : String) : FailsBuild (.authorityUnavailable reason)
  | moduleNotFound (name : String) (suggestions : List String) :
      FailsBuild (.moduleNotFound name suggestions)
  | ambiguousModule (name : String) (candidates : List String) :
      FailsBuild (.ambiguousModule name candidates)
  | versionAlreadyAssigned (name : String) : FailsBuild (.versionAlreadyAssigned name)

namespace FailsBuild

variable {error : AlignmentError}

/-- An error that fails a build is kept with its kind and all it says. -/
theorem restate_eq (h : FailsBuild error) : error.restate = error := by
  cases h <;> rfl

theorem ne_duplicateRegistration (h : FailsBuild error) (path : String) :
    error ≠ .duplicateRegistration path := by
  cases h <;> simp

theorem ne_alreadyPerformed (h : FailsBuild error) : error ≠ .alreadyPerformed := by
  cases h <;> simp

end FailsBuild

end AlignmentError

open AlignmentError (FailsBuild)

theorem failsBuild_of_admitted {policy : BarrierPolicy} {recorded : Keyed Coordinate}
    {path : String} {registration : Registration} {error : AlignmentError}
    (h : registration.admitted policy recorded path = .error error) : FailsBuild error := by
  obtain ⟨dependency, -, -, rfl⟩ := of_admitted_eq_error h
  exact .unresolvableDependency _ _

theorem failsBuild_of_combinedRequest {policy : BarrierPolicy} {modules : List Registered}
    {error : AlignmentError} (h : combinedRequest policy modules = .error (.failed error)) :
    FailsBuild error := by
  rw [combinedRequest] at h
  split at h
  · cases h
  · split at h
    · cases h
      exact .noVersion
    · cases h

theorem Aligner.failsBuild_of_align {aligner : Aligner} {request : Request}
    {error : AlignmentError} (h : (aligner.align request).outcome = .failed error) :
    FailsBuild error := by
  have hadjusted : ∀ (wrap : Alignment → AlignmentOutcome) (request : Request)
      (response : Response), (∀ alignment, wrap alignment ≠ .failed error) →
      aligner.outcomeOf wrap request response ≠ .failed error := by
    intro wrap request response hwrap
    rw [outcomeOf]
    split
    · exact hwrap _
    · simp
  rw [align] at h
  split at h
  · exact absurd h (hadjusted _ _ _ (by simp))
  · cases h
    exact .missingAuthority
  · dsimp only at h
    split at h
    · cases h
      exact .authorityUnavailable _
    · exact absurd h (hadjusted _ _ _ (by simp))

/-! ### Errors of staging -/

namespace ModuleTree

theorem failsBuild_of_resolve {tree : ModuleTree} {query : String} {error : AlignmentError}
    (h : tree.resolve query = .error error) : FailsBuild error := by
  rw [resolve] at h
  split at h
  · split at h
    · cases h
    · cases h
      exact .moduleNotFound _ _
  · split at h
    · cases h
      exact .moduleNotFound _ _
    · cases h
    · cases h
      exact .ambiguousModule _ _

theorem failsBuild_of_keysOf {tree : ModuleTree} {query : String} {error : AlignmentError}
    (h : tree.keysOf query = .error error) : FailsBuild error := by
  rw [keysOf] at h
  split at h
  · rename_i reason hresolve
    cases h
    exact failsBuild_of_resolve hresolve
  · dsimp only at h
    split at h
    · cases h
    · cases h
      exact .moduleNotFound _ _

theorem failsBuild_of_change {tree : ModuleTree} {query : String}
    {step : ModuleInfo → Except AlignmentError ModuleInfo} {error : AlignmentError}
    (hstep : ∀ info, step info = .error error → FailsBuild error)
    (h : tree.change query step = .error error) : FailsBuild error := by
  rw [change] at h
  split at h
  · rename_i reason hkeys
    cases h
    exact failsBuild_of_keysOf hkeys
  · split at h
    · cases h
      exact .moduleNotFound _ _
    · rename_i found _
      cases hinfo : step found.info with
      | error reason =>
        rw [hinfo] at h
        cases h
        exact hstep _ hinfo
      | ok info =>
        rw [hinfo] at h
        cases h

end ModuleTree

theorem Staging.failsBuild_of_stageInfo {staging : Staging} {request : ModuleRequest}
    {info : ModuleInfo} {error : AlignmentError}
    (h : staging.stageInfo request info = .error error) : FailsBuild error := by
  rw [stageInfo, assign] at h
  split at h
  · rw [ModuleInfo.assignVersion] at h
    split at h
    · cases h
      exact .versionAlreadyAssigned _
    · cases h
  · cases h

theorem Staging.failsBuild_of_stageModules {staging : Staging} {requests : List ModuleRequest}
    {tree : ModuleTree} {error : AlignmentError}
    (h : staging.stageModules requests tree = .error error) : FailsBuild error := by
  induction requests generalizing tree with
  | nil => cases h
  | cons request rest ih =>
    rw [stageModules, List.foldlM_cons] at h
    cases hfirst : staging.stageModule tree request with
    | error reason =>
      rw [hfirst] at h
      cases h
      exact ModuleTree.failsBuild_of_change (fun _ => failsBuild_of_stageInfo) hfirst
    | ok next =>
      rw [hfirst] at h
      exact ih h

theorem failsBuild_of_stage {staging : Staging} {request : Request} {tree : ModuleTree}
    {error : AlignmentError} (h : stage staging request tree = .error error) :
    FailsBuild error := by
  rw [stage] at h
  cases hroot : stageRoot request.projectVersion tree with
  | error reason =>
    rw [hroot] at h
    cases h
    rw [stageRoot] at hroot
    split at hroot
    · dsimp only at hroot
      split at hroot
      · cases hroot
        exact .noRootGroup
      · cases hroot
    · cases hroot
  | ok started =>
    rw [hroot] at h
    exact Staging.failsBuild_of_stageModules h

/-! ### Errors of publishing -/

namespace Barrier

theorem failsBuild_of_finish {barrier : Barrier} {modules : List Registered}
    {outcome : AlignmentOutcome} {error : AlignmentError}
    (houtcome : ∀ reason, outcome = .failed reason → FailsBuild reason)
    (h : barrier.finish modules outcome = .error (.failed error)) : FailsBuild error := by
  have hstaged : ∀ request response skipped,
      (barrier.stageResponse modules request response skipped).mapError Stop.failed
        = .error (.failed error) → FailsBuild error := by
    intro request response skipped hmap
    rw [stageResponse] at hmap
    cases hstage : stage _ request barrier.tree with
    | error reason =>
      rw [hstage] at hmap
      cases hmap
      exact failsBuild_of_stage hstage
    | ok tree =>
      rw [hstage] at hmap
      cases hmap
  cases outcome with
  | failed reason =>
    cases h
    exact houtcome _ rfl
  | aborted => cases h
  | skipped alignment => exact hstaged _ _ _ h
  | aligned alignment => exact hstaged _ _ _ h

theorem failsBuild_of_outcome {barrier : Barrier} {modules : List Registered}
    {error : AlignmentError} (h : barrier.outcome modules = .error (.failed error)) :
    FailsBuild error := by
  rw [outcome] at h
  split at h
  · rename_i stop hrequest
    cases h
    exact failsBuild_of_combinedRequest hrequest
  · exact failsBuild_of_finish (fun _ => Aligner.failsBuild_of_align) h

/-- An alignment fails with no other errors. -/
theorem failsBuild_of_publish {barrier : Barrier} {modules : List Registered}
    {error : AlignmentError} (h : (barrier.publish modules).2 = .error (.failed error)) :
    FailsBuild error := by
  rw [publish_eq] at h
  cases houtcome : barrier.outcome modules with
  | error stop =>
    rw [houtcome] at h
    cases h
    exact failsBuild_of_outcome houtcome
  | ok published =>
    rw [houtcome] at h
    cases h

end Barrier

end BuildAlignment
