import BuildAlignment.Proofs.Barrier.RegistrationOrder

/-!
# One call at a time

When calls come one after another, each of them finds a barrier that no other call is changing.

* `Barrier.Finishes` lists how an alignment can end, and by `Barrier.finishes` there is no other
  way.
* `Barrier.Calls` lists what a registration can do, and by `Barrier.calls` it does one of these. By
  `Barrier.Calls.alike` none of them changes what is aligned how.
* `Barrier.registerAll_missing`: without one of its modules a build is never complete.
* `Barrier.Opened.exists_finishes`: with one registration for each of them its alignment ends.
-/

namespace BuildAlignment

namespace Barrier

/-! ### The last call -/

/-- Everything that the last steps of the last registration can leave and answer. -/
inductive Finishes (barrier : Barrier) : Barrier → Except Stop RegistrationStatus → Prop
  | completed {tree : ModuleTree} {handle : AlignmentHandle}
      (outcome : barrier.outcome barrier.inOrder = .ok (tree, handle)) :
      Finishes barrier
        { barrier with
          asked := barrier.asked ++ barrier.questions barrier.inOrder
          tree
          phase := .completed handle }
        (.ok (.complete handle))
  | failed {error : AlignmentError}
      (outcome : barrier.outcome barrier.inOrder = .error (.failed error)) :
      Finishes barrier
        { barrier with
          asked := barrier.asked ++ barrier.questions barrier.inOrder
          phase := .failed error.restate }
        (.error (.failed error))
  | aborted (outcome : barrier.outcome barrier.inOrder = .error .aborted) :
      Finishes barrier
        { barrier with asked := barrier.asked ++ barrier.questions barrier.inOrder }
        (.error .aborted)

theorem finishes (barrier : Barrier) : Finishes barrier barrier.finishing.1 barrier.finishing.2 := by
  rw [finishing, publish_eq, treeAfter]
  cases houtcome : barrier.outcome barrier.inOrder with
  | ok published => exact .completed houtcome
  | error stop =>
    cases stop with
    | failed error => exact .failed houtcome
    | aborted => exact .aborted houtcome

/-- An alignment only changes the tree and the phase, and what has been asked. -/
theorem Finishes.alike {barrier next : Barrier} {status : Except Stop RegistrationStatus}
    (finishes : Finishes barrier next status) : next.Alike barrier := by
  cases finishes with
  | completed => exact ⟨rfl, rfl, rfl, rfl⟩
  | failed => exact ⟨rfl, rfl, rfl, rfl⟩
  | aborted => exact ⟨rfl, rfl, rfl, rfl⟩

/-! ### Every call -/

/-- Everything that a registration can leave and answer, and what is known when it does so. -/
inductive Calls (barrier : Barrier) (registration : Registration) :
    Barrier → Except Stop RegistrationStatus → Prop
  | unknown {error : AlignmentError}
      (lookup : barrier.tree.resolve registration.module = .error error) :
      Calls barrier registration barrier (.error (.failed error))
  | refused {path : String} {error : AlignmentError}
      (lookup : barrier.tree.resolve registration.module = .ok path)
      (refuses : barrier.Refuses path error) :
      Calls barrier registration barrier (.error (.failed error))
  | rejected {path : String} {error : AlignmentError}
      (lookup : barrier.tree.resolve registration.module = .ok path)
      (admits : barrier.Admits path registration (.error error)) :
      Calls barrier registration { barrier with phase := .failed error.restate }
        (.error (.failed error))
  | waiting {path : String} {admitted : Registration}
      (lookup : barrier.tree.resolve registration.module = .ok path)
      (admits : barrier.Admits path registration (.ok admitted))
      (others : barrier.remaining.erase path ≠ []) :
      Calls barrier registration (barrier.store path admitted)
        (.ok (.pending (barrier.remaining.erase path).length))
  | last {path : String} {admitted : Registration} {next : Barrier}
      {status : Except Stop RegistrationStatus}
      (lookup : barrier.tree.resolve registration.module = .ok path)
      (admits : barrier.Admits path registration (.ok admitted))
      (none : barrier.remaining.erase path = [])
      (finishes : Finishes { barrier.store path admitted with phase := .aligning } next status) :
      Calls barrier registration next status

theorem calls (barrier : Barrier) (registration : Registration) :
    Calls barrier registration (barrier.register registration).1
      (barrier.register registration).2 := by
  rw [register, enter]
  cases hresolve : barrier.tree.resolve registration.module with
  | error error => exact .unknown hresolve
  | ok path =>
    simp only
    rcases barrier.enterAt_cases path registration with
      ⟨error, refuses, henter⟩ | ⟨error, admits, henter⟩ | ⟨admitted, admits, henter⟩
    · rw [henter]
      exact .refused hresolve refuses
    · rw [henter]
      exact .rejected hresolve admits
    · by_cases hnone : barrier.remaining.erase path = []
      · rw [henter, accept_of_none hnone]
        exact .last hresolve admits hnone (finishes _)
      · rw [henter, accept_of_others hnone]
        exact .waiting hresolve admits hnone

/-- A call leaves a barrier that aligns as before. -/
theorem Calls.alike {barrier next : Barrier} {registration : Registration}
    {status : Except Stop RegistrationStatus} (called : Calls barrier registration next status) :
    next.Alike barrier := by
  cases called with
  | unknown => exact .refl barrier
  | refused => exact .refl barrier
  | rejected => exact ⟨rfl, rfl, rfl, rfl⟩
  | waiting => exact ⟨rfl, rfl, rfl, rfl⟩
  | last _ _ _ finishes => exact finishes.alike.trans ⟨rfl, rfl, rfl, rfl⟩

/-- However many calls come, the barrier aligns as before. -/
theorem alike_registerAll (barrier : Barrier) (registrations : List Registration) :
    (barrier.registerAll registrations).1.Alike barrier := by
  induction registrations generalizing barrier with
  | nil => exact .refl barrier
  | cons registration rest ih =>
    rw [registerAll_cons (Prod.eta _).symm]
    exact (ih _).trans (barrier.calls registration).alike

/-! ### Modules that do not register -/

/-- A module that a call does not mean is still missing after it, so the call completes nothing. -/
theorem Calls.missing {barrier next : Barrier} {registration : Registration}
    {status : Except Stop RegistrationStatus} (called : Calls barrier registration next status)
    {path : String} (hmissing : path ∈ barrier.remaining)
    (hother : ∀ meant, barrier.tree.resolve registration.module = .ok meant → meant ≠ path) :
    path ∈ next.remaining ∧ next.tree = barrier.tree ∧ ∀ handle, status ≠ .ok (.complete handle) := by
  have hleft : ∀ meant, barrier.tree.resolve registration.module = .ok meant →
      path ∈ barrier.remaining.erase meant :=
    fun meant hmeant => (List.mem_erase_of_ne (hother meant hmeant).symm).2 hmissing
  cases called with
  | unknown lookup => exact ⟨hmissing, rfl, by simp⟩
  | refused lookup refuses => exact ⟨hmissing, rfl, by simp⟩
  | rejected lookup admits => exact ⟨hmissing, rfl, by simp⟩
  | waiting lookup admits others => exact ⟨hleft _ lookup, rfl, by simp⟩
  | last lookup admits none finishes =>
    have hnone := hleft _ lookup
    rw [none] at hnone
    cases hnone

/-- A build of which one module does not register is never complete. -/
theorem registerAll_missing {barrier : Barrier} {registrations : List Registration} {path : String}
    (hmissing : path ∈ barrier.remaining)
    (hother : ∀ registration ∈ registrations, ∀ meant,
      barrier.tree.resolve registration.module = .ok meant → meant ≠ path) :
    path ∈ (barrier.registerAll registrations).1.remaining ∧
      ∀ status ∈ (barrier.registerAll registrations).2,
        ∀ handle, status ≠ .ok (.complete handle) := by
  induction registrations generalizing barrier with
  | nil => exact ⟨hmissing, by simp [registerAll]⟩
  | cons registration rest ih =>
    obtain ⟨hleft, htree, hstatus⟩ := (barrier.calls registration).missing hmissing
      (hother registration List.mem_cons_self)
    obtain ⟨hlater, hstatuses⟩ := ih hleft (by
      rw [htree]
      exact fun other hmem => hother other (List.mem_cons_of_mem _ hmem))
    rw [registerAll_cons (Prod.eta _).symm]
    refine ⟨hlater, ?_⟩
    intro status hmem
    rcases List.mem_cons.1 hmem with rfl | hrest
    · exact hstatus
    · exact hstatuses status hrest

/-! ### One registration for every module -/

section Each

variable {tree : ModuleTree} {aligner : Aligner} {policy : BarrierPolicy} {barrier : Barrier}

/-- When every module of a build registers once and nothing is rejected, all calls but the last are
told to wait, and the last one aligns what has been collected. -/
theorem Opened.exists_finishes (opened : Opened tree aligner policy barrier) (built : tree.Built)
    {registrations : List Registration}
    (each : (registrations.map fun registration => tree.resolve registration.module).Perm
      (tree.paths.map .ok))
    (hadmitted : ∀ registration ∈ registrations, ∀ dependency ∈ registration.dependencies,
      ¬ policy.Rejects dependency) :
    ∃ next status, barrier.registerAll registrations
        = (next, countdown (registrations.length - 1) ++ [status]) ∧
      Finishes (barrier.collect barrier registrations) next status := by
  have hadmitted' : ∀ registration ∈ registrations, ∀ dependency ∈ registration.dependencies,
      ¬ barrier.policy.Rejects dependency := by
    intro registration hmem dependency hdependency
    rw [opened.rejects_iff]
    exact hadmitted registration hmem dependency hdependency
  have hne : registrations ≠ [] := by
    rintro rfl
    obtain ⟨rest, hpaths⟩ := tree.paths_eq_cons
    rw [hpaths] at each
    exact absurd each.length_eq (by simp)
  obtain ⟨registration, rest, rfl⟩ := List.exists_cons_of_ne_nil hne
  exact ⟨_, _, (opened.awaits built each).registerAll_eq hadmitted', finishes _⟩

end Each

end Barrier

end BuildAlignment
