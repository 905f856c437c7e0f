import BuildAlignment.Proofs.Barrier.Phases

/-!
# Failure is atomic and final

A build that fails leaves the tree as it was given, and what it failed with is told to everyone who
comes later. A build that is complete stays as it is.

* `Barrier.TurnsAway` holds of the errors of a registration that comes twice or too late.
* `Session.HasFailed` and `Session.HasCompleted` say what is settled from then on.
* `Session.FailsWhole` adds what a call changes that is turned away: nothing.
* `Session.failsWhole_run`: every session keeps to this, whatever the calls and their order.
-/

namespace BuildAlignment

open AlignmentError (FailsBuild)

/-! ### Registrations that are turned away -/

/-- The error says that the module has registered or the build is over. -/
def Barrier.TurnsAway (barrier : Barrier) (error : AlignmentError) : Prop :=
  (∃ path, error = .duplicateRegistration path) ∨ error = .alreadyPerformed ∨
    ∃ kept, barrier.phase = .failed kept

/-- An error that fails a build turns nobody away. -/
theorem Barrier.not_turnsAway {barrier : Barrier} {error : AlignmentError}
    (hfails : FailsBuild error) (hphase : ∀ kept, barrier.phase ≠ .failed kept) :
    ¬ barrier.TurnsAway error := by
  rintro (⟨path, rfl⟩ | rfl | ⟨kept, hkept⟩)
  · exact hfails.ne_duplicateRegistration path rfl
  · exact hfails.ne_alreadyPerformed rfl
  · exact hphase kept hkept

/-- A registration whose module is not known, or that is turned away, changes nothing. -/
theorem Barrier.register_of_turnsAway {barrier after : Barrier} {registration : Registration}
    {error : AlignmentError} (h : barrier.register registration = (after, .error (.failed error)))
    (hrefused : barrier.tree.resolve registration.module = .error error ∨
      barrier.TurnsAway error) : after = barrier := by
  rw [register, enter] at h
  cases hresolve : barrier.tree.resolve registration.module with
  | error reason =>
    rw [hresolve] at h
    exact (congrArg Prod.fst h).symm
  | ok path =>
    rw [hresolve] at h hrefused
    have haway : barrier.TurnsAway error := by
      rcases hrefused with hunknown | haway
      · cases hunknown
      · exact haway
    rcases barrier.enterAt_cases path registration with
      ⟨reason, -, henter⟩ | ⟨reason, admits, henter⟩ | ⟨admitted, admits, henter⟩
    · simp only [henter] at h
      exact (congrArg Prod.fst h).symm
    · simp only [henter] at h
      have hreason : reason = error := by
        cases h
        rfl
      rw [← hreason] at haway
      exact absurd haway
        (not_turnsAway (failsBuild_of_admitted admits.result) (by rw [admits.phase]; simp))
    · by_cases hnone : barrier.remaining.erase path = []
      · simp only [henter, accept_of_none hnone] at h
        -- The errors of the last registration are those of the alignment.
        have hphase : ∀ kept, barrier.phase ≠ .failed kept := by
          rw [admits.phase]
          simp
        cases hresult : ({ barrier.store path admitted with phase := .aligning }.publish
            (barrier.store path admitted).inOrder).2 with
        | ok handle =>
          rw [hresult] at h
          cases h
        | error stop =>
          rw [hresult] at h
          cases stop with
          | aborted => cases h
          | failed reason =>
            cases h
            exact absurd haway (not_turnsAway (failsBuild_of_publish hresult) hphase)
      · simp only [henter, accept_of_others hnone] at h
        cases h

namespace Session

variable {start : Barrier} {session : Session} {call : Nat} {registration : Registration}

theorem barrier_of_arrived (arrived : session.progress call = .arrived) :
    (session.step call).barrier = session.barrier := by
  have taken := step_spec session call
  generalize session.step call = next at taken
  cases taken with
  | idle => rfl
  | unknown => rfl
  | found => rfl
  | refused located _ =>
    rw [arrived] at located
    cases located
  | rejected _ located _ =>
    rw [arrived] at located
    cases located
  | waiting _ located _ _ =>
    rw [arrived] at located
    cases located
  | last _ located _ _ =>
    rw [arrived] at located
    cases located
  | published collected =>
    rw [arrived] at collected
    cases collected
  | settled aligned =>
    rw [arrived] at aligned
    cases aligned

namespace Steady

/-- A call that a step answers with a refusal has left the barrier as it was. -/
theorem barrier_of_turnsAway (h : Steady start session) {error : AlignmentError}
    (hanswered : (session.step call).progress call = .answered (.error (.failed error)))
    (haway : session.barrier.TurnsAway error) :
    (session.step call).barrier = session.barrier := by
  have taken := step_spec session call
  generalize session.step call = next at taken hanswered
  cases taken with
  | idle => rfl
  | unknown => rfl
  | found => rfl
  | refused => rfl
  | rejected _ located admits =>
    rw [progress_move_self] at hanswered
    cases hanswered
    exact absurd haway
      (Barrier.not_turnsAway (failsBuild_of_admitted admits.result) (by rw [admits.phase]; simp))
  | waiting =>
    rw [progress_move_self] at hanswered
    cases hanswered
  | last =>
    rw [progress_move_self] at hanswered
    cases hanswered
  | published =>
    rw [publish, progress_move_self] at hanswered
    cases hanswered
  | @settled result aligned =>
    rw [settle, progress_move_self] at hanswered
    have hphase := h.aligning_of_busy (by rw [aligned]; trivial)
    cases result with
    | ok handle => cases hanswered
    | error stop =>
      cases stop with
      | aborted => cases hanswered
      | failed reason =>
        cases hanswered
        exact absurd haway
          (Barrier.not_turnsAway (h.results call _ aligned) (by rw [hphase]; simp))

end Steady

/-! ### What is settled once a build is over -/

/-- The build has failed with an error, and everyone who comes later is told so. -/
structure HasFailed (session : Session) (error : AlignmentError) : Prop where
  fails : error.FailsBuild
  final : ∀ schedule, (session.run schedule).barrier = session.barrier
  /-- A call that knows its path is told when it is checked. -/
  located : ∀ call registration path schedule,
    session.registrations[call]? = some registration → session.progress call = .located path →
    call ∈ schedule →
    (session.run schedule).progress call = .answered (.error (.failed error))
  /-- A call that begins later is told when its module has been found. -/
  arrived : ∀ call registration path schedule,
    session.registrations[call]? = some registration → session.progress call = .arrived →
    session.barrier.tree.resolve registration.module = .ok path → 2 ≤ schedule.count call →
    (session.run schedule).progress call = .answered (.error (.failed error))
  registers : ∀ registration path, session.barrier.tree.resolve registration.module = .ok path →
    session.barrier.register registration = (session.barrier, .error (.failed error))
  finishedHandle : session.barrier.finishedHandle = .error error
  finishedModel : session.barrier.finishedModel = .error error

/-- The build is complete, and neither its tree nor its handle changes again. -/
structure HasCompleted (session : Session) (handle : AlignmentHandle) : Prop where
  final : ∀ schedule, (session.run schedule).barrier = session.barrier
  registers : ∀ registration, (session.barrier.register registration).1 = session.barrier
  finishedHandle : session.barrier.finishedHandle = .ok handle
  finishedModel : session.barrier.finishedModel = .ok session.barrier.tree

namespace Steady

/-- A call that knows its path is answered with the error, whenever its next step comes. -/
theorem answered_of_failed (h : Steady start session) {error : AlignmentError} {path : String}
    (hphase : session.barrier.phase = .failed error)
    (registered : session.registrations[call]? = some registration)
    (located : session.progress call = .located path) {schedule : List Nat}
    (hmem : call ∈ schedule) :
    (session.run schedule).progress call = .answered (.error (.failed error)) := by
  obtain ⟨before, after, rfl, hbefore⟩ := List.eq_append_cons_of_mem hmem
  rw [run_append, run_cons]
  have hfinal : session.barrier.phase.Final := by rw [hphase]; trivial
  have hbarrier := h.run_barrier_of_final hfinal before
  have hregistered : (session.run before).registrations[call]? = some registration := by
    rw [run_registrations_eq, registered]
  have hlocated : (session.run before).progress call = .located path := by
    rw [run_of_not_mem hbefore, located]
  refine run_of_answered ?_ after
  have hcheck : (session.run before).barrier.enterAt path registration
      = ((session.run before).barrier, .refused error.restate) := by
    rw [hbarrier, Barrier.enterAt, hphase]
  rw [step_of_located hregistered hlocated, check, hcheck]
  simp only
  rw [progress_move_self, (h.fails error hphase).restate_eq]

/-- Once a build has failed, all that comes later has the error for an answer. -/
theorem hasFailed (h : Steady start session) {error : AlignmentError}
    (hphase : session.barrier.phase = .failed error) : session.HasFailed error := by
  have hfails := h.fails error hphase
  have hfinal : session.barrier.phase.Final := by rw [hphase]; trivial
  have hhandle : session.barrier.finishedHandle = .error error := by
    simp only [Barrier.finishedHandle, hphase, hfails.restate_eq]
  refine ⟨hfails, h.run_barrier_of_final hfinal, ?_, ?_, ?_, hhandle, ?_⟩
  · intro call registration path schedule registered located hmem
    exact h.answered_of_failed hphase registered located hmem
  · intro call registration path schedule registered arrived hresolve hcount
    have hmem : call ∈ schedule := List.count_pos_iff.1 (by omega)
    obtain ⟨before, after, rfl, hbefore⟩ := List.eq_append_cons_of_mem hmem
    rw [run_append, run_cons]
    have hbarrier := h.run_barrier_of_final hfinal before
    have hregistered : (session.run before).registrations[call]? = some registration := by
      rw [run_registrations_eq, registered]
    have harrived : (session.run before).progress call = .arrived := by
      rw [run_of_not_mem hbefore, arrived]
    have hafter : call ∈ after := by
      rw [List.count_append, List.count_eq_zero_of_not_mem hbefore, List.count_cons_self] at hcount
      exact List.count_pos_iff.1 (by omega)
    have hfound : (session.run before).step call
        = (session.run before).move call (.located path) := by
      rw [step_of_arrived hregistered harrived, lookUp, hbarrier, hresolve]
    have hsteady : Steady start ((session.run before).move call (.located path)) := by
      rw [← hfound]
      exact (h.run before).step (step_spec _ call)
    rw [hfound]
    refine hsteady.answered_of_failed ?_ hregistered (by rw [progress_move_self]) hafter
    show (session.run before).barrier.phase = .failed error
    rw [hbarrier, hphase]
  · intro registration path hresolve
    rw [Barrier.register, Barrier.enter, hresolve]
    simp only [Barrier.enterAt, hphase, hfails.restate_eq]
  · rw [Barrier.finishedModel, hhandle]
    rfl

theorem hasCompleted (h : Steady start session) {handle : AlignmentHandle}
    (hphase : session.barrier.phase = .completed handle) : session.HasCompleted handle := by
  have hfinal : session.barrier.phase.Final := by rw [hphase]; trivial
  have hhandle : session.barrier.finishedHandle = .ok handle := by
    rw [Barrier.finishedHandle, hphase]
  refine ⟨h.run_barrier_of_final hfinal, ?_, hhandle, ?_⟩
  · intro registration
    rw [Barrier.register, Barrier.enter]
    cases hresolve : session.barrier.tree.resolve registration.module with
    | error error => rfl
    | ok path => simp only [Barrier.enterAt, hphase]
  · rw [Barrier.finishedModel, hhandle]
    rfl

end Steady

/-! ### The whole of it -/

/-- What a session keeps to about failing and completing, at a moment of it. -/
structure FailsWhole (tree : ModuleTree) (session : Session) : Prop where
  /-- While the barrier collects, and once the build has failed, the given tree is there. -/
  collecting : session.barrier.phase = .collecting → session.barrier.tree = tree
  failed : ∀ error, session.barrier.phase = .failed error → session.barrier.tree = tree
  /-- Looking a module up leaves the barrier as it is, whether the module is known or not. -/
  lookup : ∀ call, session.progress call = .arrived →
    (session.step call).barrier = session.barrier
  /-- A call that is turned away leaves the barrier as it is. -/
  refusal : ∀ call error, (session.step call).progress call = .answered (.error (.failed error)) →
    session.barrier.TurnsAway error → (session.step call).barrier = session.barrier
  /-- So does a registration that takes all its steps in a row. -/
  registers : ∀ registration after error,
    session.barrier.register registration = (after, .error (.failed error)) →
    session.barrier.tree.resolve registration.module = .error error ∨
      session.barrier.TurnsAway error → after = session.barrier
  hasFailed : ∀ error, session.barrier.phase = .failed error → session.HasFailed error
  hasCompleted : ∀ handle, session.barrier.phase = .completed handle → session.HasCompleted handle

/-- Failing is atomic and final, for every tree, all calls and every order of their steps. -/
theorem failsWhole_run {tree : ModuleTree} {aligner : Aligner} {policy : BarrierPolicy}
    {barrier : Barrier} (opened : Barrier.Opened tree aligner policy barrier)
    (registrations : List Registration) (schedule : List Nat) :
    FailsWhole tree ((Session.start barrier registrations).run schedule) := by
  have htree := opened.tree_eq
  have h := opened.steady registrations schedule
  refine ⟨?_, ?_, ?_, ?_, ?_, fun _ => h.hasFailed, fun _ => h.hasCompleted⟩
  · intro hphase
    rw [h.tree_of_collecting hphase, htree]
  · intro error hphase
    rw [h.tree_of_failed hphase, htree]
  · intro call arrived
    exact barrier_of_arrived arrived
  · intro call error hanswered haway
    exact h.barrier_of_turnsAway hanswered haway
  · intro registration after error hregister hrefused
    exact Barrier.register_of_turnsAway hregister hrefused

open SmallBuild in
/-- Of three calls the second has a dependency that is not resolved. The first has been accepted by
then, and the third is told the same error. -/
theorem failsWhole_unresolvable :
    let unresolved : Dependency := ⟨⟨"org.lib", "core", "1.0"⟩, none⟩
    let session := (Session.start SmallBuild.barrier
      [registrationOf ":core" "core" [], registrationOf ":" "app" [unresolved],
        registrationOf "core" "core" []]).run [0, 0, 1, 1]
    Barrier.Opened tree aligner {} SmallBuild.barrier ∧ FailsWhole tree session ∧
      session.barrier.phase = .failed (.unresolvableDependency ":" "org.lib:core:1.0") ∧
      (session.run [2, 2]).progress 2
        = .answered (.error (.failed (.unresolvableDependency ":" "org.lib:core:1.0"))) := by
  intro unresolved session
  have hwhole : FailsWhole tree session := failsWhole_run opened _ _
  have hphase : session.barrier.phase
      = .failed (.unresolvableDependency ":" "org.lib:core:1.0") := by decide +kernel
  refine ⟨opened, hwhole, hphase, ?_⟩
  have hthird : session.registrations[2]? = some (registrationOf "core" "core" []) := by
    rw [run_registrations_eq]
    rfl
  have harrived : session.progress 2 = .arrived := by
    simp only [session]
    rw [run_of_not_mem (by decide)]
    rfl
  have hresolve : session.barrier.tree.resolve "core" = .ok ":core" := by
    rw [hwhole.failed _ hphase]
    exact resolve_core
  exact (hwhole.hasFailed _ hphase).arrived 2 _ ":core" [2, 2] hthird harrived hresolve (by decide)

end Session

end BuildAlignment
