import BuildAlignment.Proofs.Alignment.Assembly
import BuildAlignment.Proofs.Barrier.Progress
import BuildAlignment.Proofs.Barrier.Staged

/-!
# How the alignment of a build can end

Where every path of a built tree means itself, all that is wrong with an alignment lies with the
configuration or with the authority.

* `Staging.of_stage_eq_error`: a built tree is not filled in only for want of a group of its root.
* `AlignmentError.Outside` holds of the errors that lie with the configuration or the authority.
* `Barrier.outside_of_outcome`: an alignment fails with no others.
* `Barrier.Opened.concludes`: what is answered when every module registers once and nothing
  is rejected.
-/

namespace BuildAlignment

/-! ### Errors of staging -/

theorem of_stageRoot_eq_error {version : String} {tree : ModuleTree} {error : AlignmentError}
    (h : stageRoot version tree = .error error) : error = .configuration .noRootGroup := by
  rw [stageRoot] at h
  split at h
  · dsimp only at h
    split at h
    · cases h
      rfl
    · cases h
  · cases h

theorem Staging.of_stage_eq_error {staging : Staging} {request : Request} {tree : ModuleTree}
    {error : AlignmentError} (built : tree.Built)
    (hself : ∀ path ∈ tree.paths, tree.resolve path = .ok path)
    (hpaths : request.modules.map ModuleRequest.path = tree.paths)
    (h : stage staging request tree = .error error) : error = .configuration .noRootGroup := by
  have hfilled : (∃ after, stage staging request tree = .ok after) ↔
      ∃ started, stageRoot request.projectVersion tree = .ok started :=
    stage_isOk_iff built hself hpaths
  cases hroot : stageRoot request.projectVersion tree with
  | ok started =>
    obtain ⟨after, hafter⟩ := hfilled.2 ⟨started, hroot⟩
    rw [h] at hafter
    cases hafter
  | error reason =>
    rw [stage, hroot] at h
    cases h
    exact of_stageRoot_eq_error hroot

/-! ### Errors of an alignment -/

/-- The error lies with the configuration or with the authority. -/
def AlignmentError.Outside (error : AlignmentError) : Prop :=
  error.isConfiguration = true ∨ ∃ reason, error = .authorityUnavailable reason

theorem Aligner.outside_of_align {aligner : Aligner} {request : Request} {error : AlignmentError}
    (h : (aligner.align request).outcome = .failed error) : error.Outside := by
  have hadjusted : ∀ {wrap : Alignment → AlignmentOutcome} {response : Response},
      (∀ alignment, wrap alignment ≠ .failed error) →
      aligner.outcomeOf wrap (aligner.restricted request) response ≠ .failed error := by
    intro wrap response hwrap
    rw [outcomeOf]
    split
    · exact hwrap _
    · simp
  rw [align] at h
  split at h
  · exact absurd h (hadjusted (by simp))
  · cases h
    exact .inl rfl
  · dsimp only at h
    split at h
    · cases h
      exact .inr ⟨_, rfl⟩
    · exact absurd h (hadjusted (by simp))

namespace Barrier

theorem paths_of_combinedRequest {policy : BarrierPolicy} {modules : List Registered}
    {request : Request} (h : combinedRequest policy modules = .ok request) :
    request.modules.map ModuleRequest.path = modules.map Prod.fst := by
  rw [modules_of_combinedRequest h, List.map_map]
  rfl

/-- Writing a response into a built tree fails only for want of a group of its root. -/
theorem of_stageResponse_eq_error {barrier : Barrier} {modules : List Registered} {request : Request}
    {response : Response} {skipped : Bool} {error : AlignmentError} (built : barrier.tree.Built)
    (hself : ∀ path ∈ barrier.tree.paths, barrier.tree.resolve path = .ok path)
    (hpaths : request.modules.map ModuleRequest.path = barrier.tree.paths)
    (h : (barrier.stageResponse modules request response skipped).mapError Stop.failed
      = .error (.failed error)) : error = .configuration .noRootGroup := by
  rw [stageResponse] at h
  cases hstage : stage _ request barrier.tree with
  | ok tree =>
    rw [hstage] at h
    cases h
  | error reason =>
    rw [hstage] at h
    cases h
    exact Staging.of_stage_eq_error built hself hpaths hstage

/-- The alignment of a build whose paths mean themselves fails for its configuration or for its
authority. -/
theorem outside_of_outcome {barrier : Barrier} {modules : List Registered} {error : AlignmentError}
    (built : barrier.tree.Built)
    (hself : ∀ path ∈ barrier.tree.paths, barrier.tree.resolve path = .ok path)
    (hpaths : modules.map Prod.fst = barrier.tree.paths)
    (h : barrier.outcome modules = .error (.failed error)) : error.Outside := by
  rw [outcome] at h
  cases hrequest : combinedRequest barrier.policy modules with
  | error stop =>
    rw [hrequest] at h
    cases h
    rw [combinedRequest] at hrequest
    split at hrequest
    · cases hrequest
    · split at hrequest
      · cases hrequest
        exact .inl rfl
      · cases hrequest
  | ok request =>
    simp only [hrequest] at h
    have hlisted : (barrier.aligner.restricted request).modules.map ModuleRequest.path
        = barrier.tree.paths := by
      rw [Aligner.paths_restricted, paths_of_combinedRequest hrequest, hpaths]
    cases houtcome : (barrier.aligner.align request).outcome with
    | failed reason =>
      rw [houtcome] at h
      cases h
      exact Aligner.outside_of_align houtcome
    | aborted =>
      rw [houtcome] at h
      cases h
    | skipped alignment =>
      obtain ⟨-, -, hrestricted, -⟩ := Aligner.of_align_eq_skipped houtcome
      rw [houtcome, finish] at h
      rw [of_stageResponse_eq_error built hself (hrestricted ▸ hlisted) h]
      exact .inl rfl
    | aligned alignment =>
      obtain ⟨-, -, -, -, -, -, hrestricted, -⟩ := Aligner.of_align_eq_aligned houtcome
      rw [houtcome, finish] at h
      rw [of_stageResponse_eq_error built hself (hrestricted ▸ hlisted) h]
      exact .inl rfl

/-! ### One registration for every module -/

/-- How the last registration of a build is answered: it completes the build, or it says what is
wrong with the configuration or the authority. -/
inductive Concludes : Except Stop RegistrationStatus → Prop
  | complete (handle : AlignmentHandle) : Concludes (.ok (.complete handle))
  | outside {error : AlignmentError} (outside : error.Outside) :
      Concludes (.error (.failed error))

variable {tree : ModuleTree} {aligner : Aligner} {policy : BarrierPolicy} {barrier : Barrier}

/-- Once every module has registered, all of them have been collected in path order. -/
theorem Opened.map_fst_collect (opened : Opened tree aligner policy barrier) (built : tree.Built)
    {registrations : List Registration}
    (each : (registrations.map fun registration => tree.resolve registration.module).Perm
      (tree.paths.map .ok))
    (hadmitted : ∀ registration ∈ registrations, ∀ dependency ∈ registration.dependencies,
      ¬ policy.Rejects dependency) :
    (barrier.collect barrier registrations).inOrder.map Prod.fst = tree.paths := by
  have ready := opened.ready built
  have horder : barrier.order = tree.paths := by rw [opened.eq]
  have hkeys := (opened.awaits built each).keys_perm fun registration hmem dependency hdependency =>
    (opened.rejects_iff dependency).not.2 (hadmitted registration hmem dependency hdependency)
  rw [← horder]
  have hdistinct : (barrier.collect barrier registrations).order.Nodup := ready.distinct
  refine map_fst_inOrder hdistinct ?_
  intro path hpath
  show path ∈ (barrier.registered ++ registrations.filterMap barrier.keeps?).map Prod.fst
  rw [List.map_append]
  refine List.mem_append_right _ (hkeys.mem_iff.2 ?_)
  rw [ready.remaining]
  exact hpath

/-- When every module of a build registers once and nothing is rejected, all calls but the last are
told to wait, and the last one runs the alignment to its end. -/
theorem Opened.concludes (opened : Opened tree aligner policy barrier)
    (built : tree.Built) (hself : ∀ path ∈ tree.paths, tree.resolve path = .ok path)
    {registrations : List Registration}
    (each : (registrations.map fun registration => tree.resolve registration.module).Perm
      (tree.paths.map .ok))
    (hadmitted : ∀ registration ∈ registrations, ∀ dependency ∈ registration.dependencies,
      ¬ policy.Rejects dependency)
    (feasible : Feasible barrier registrations) :
    ∃ status, (barrier.registerAll registrations).2
      = countdown (registrations.length - 1) ++ [status] ∧ Concludes status := by
  obtain ⟨next, status, hanswers, hends⟩ := opened.exists_finishes built each hadmitted
  obtain ⟨-, hnever, -⟩ := opened.resting.registerAll feasible fun _ hmem => hmem
  rw [hanswers] at hnever ⊢
  refine ⟨status, rfl, ?_⟩
  cases hends with
  | completed outcome => exact .complete _
  | aborted outcome =>
    exact absurd rfl (hnever _ (List.mem_append_right _ (List.mem_singleton.2 rfl)))
  | failed outcome =>
    have htree : (barrier.collect barrier registrations).tree = tree := opened.tree_eq
    refine .outside (outside_of_outcome (htree.symm ▸ built) (htree.symm ▸ hself) ?_ outcome)
    rw [htree, opened.map_fst_collect built each hadmitted]

end Barrier

end BuildAlignment
