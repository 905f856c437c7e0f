import BuildAlignment.Proofs.Barrier.Admission
import BuildAlignment.Proofs.Barrier.Collected

/-!
# The order of registrations

The modules of a build register one after another, each of them once. In what order they do so
decides nothing.

* `Barrier.Awaits` holds of a barrier on the way, with the registrations that are still to come.
* `Barrier.Awaits.registerAll_eq`: where none of them is rejected, the last one aligns the build.
* `Barrier.finishing_congr`: what comes of that does not depend on the order.
* `Barrier.Awaits.registerAll_rejected`: where one is rejected, the build fails.
* `Barrier.registerAll_perm` is both for all orders of the registrations of a build.
-/

namespace BuildAlignment

namespace Barrier

/-! ### Aligning what has been collected -/

/-- The last steps of the last registration. -/
def finishing (barrier : Barrier) : Barrier × Except Stop RegistrationStatus :=
  (barrier.publish barrier.inOrder).1.settle (barrier.publish barrier.inOrder).2

/-- An alignment looks at the collected registrations, and at no other order of them. -/
theorem finishing_congr {barrier : Barrier} {registered : List Registered}
    (h : ({ barrier with registered } : Barrier).inOrder = barrier.inOrder) :
    ({ barrier with registered } : Barrier).finishing
      = ({ barrier.finishing.1 with registered }, barrier.finishing.2) := by
  have halike : ({ barrier with registered } : Barrier).Alike barrier := ⟨rfl, rfl, rfl, rfl⟩
  have houtcome := outcome_congr halike rfl barrier.inOrder
  have htree : ({ barrier with registered } : Barrier).treeAfter barrier.inOrder
      = barrier.treeAfter barrier.inOrder := by
    rw [treeAfter, treeAfter, houtcome]
  rw [finishing, finishing, h, publish_eq, publish_eq, houtcome, htree]
  cases barrier.outcome barrier.inOrder with
  | ok published => rfl
  | error stop =>
    cases stop with
    | failed error => rfl
    | aborted => rfl

theorem registerAll_cons {barrier next : Barrier} {registration : Registration}
    {status : Except Stop RegistrationStatus}
    (h : barrier.register registration = (next, status)) (rest : List Registration) :
    barrier.registerAll (registration :: rest)
      = ((next.registerAll rest).1, status :: (next.registerAll rest).2) := by
  rw [registerAll, h]

theorem finishing_ne_pending (barrier : Barrier) (remaining : Nat) :
    barrier.finishing.2 ≠ .ok (.pending remaining) := by
  rw [finishing]
  cases (barrier.publish barrier.inOrder).2 with
  | ok handle => simp [settle]
  | error stop =>
    cases stop with
    | failed error => simp [settle]
    | aborted => simp [settle]

/-! ### A barrier on the way -/

/-- What a barrier keeps of a registration, if it does. -/
def keeps? (start : Barrier) (registration : Registration) : Option Registered :=
  match start.tree.resolve registration.module with
  | .error _ => none
  | .ok path =>
    (registration.admitted start.policy (start.recorded.at path) path).toOption.map
      fun admitted => (path, admitted)

/-- A collecting barrier that still waits for these registrations, one for every remaining
module. -/
structure Awaits (start barrier : Barrier) (registrations : List Registration) : Prop where
  eq : barrier = { start with remaining := barrier.remaining, registered := barrier.registered }
  collecting : start.phase = .collecting
  each : (registrations.map fun registration => start.tree.resolve registration.module).Perm
    (barrier.remaining.map .ok)
  distinct : (barrier.remaining ++ barrier.registered.map Prod.fst).Nodup

namespace Awaits

variable {start barrier : Barrier} {registration : Registration} {rest : List Registration}

theorem length_eq {registrations : List Registration} (h : Awaits start barrier registrations) :
    registrations.length = barrier.remaining.length := by
  have hlength := h.each.length_eq
  rw [List.length_map, List.length_map] at hlength
  exact hlength

/-- The next registration is for a remaining module. -/
theorem resolve_head (h : Awaits start barrier (registration :: rest)) :
    ∃ path ∈ barrier.remaining, start.tree.resolve registration.module = .ok path := by
  have hmem : start.tree.resolve registration.module ∈ barrier.remaining.map Except.ok :=
    h.each.mem_iff.1 List.mem_cons_self
  obtain ⟨path, hpath, heq⟩ := List.mem_map.1 hmem
  exact ⟨path, hpath, heq.symm⟩

/-- The next registration is checked as the first one for its module. -/
theorem admits_head (h : Awaits start barrier (registration :: rest)) {path : String}
    (hpath : path ∈ barrier.remaining) {admitted : Except AlignmentError Registration}
    (hadmitted : registration.admitted start.policy (start.recorded.at path) path = admitted) :
    barrier.Admits path registration admitted := by
  refine ⟨?_, ?_, ?_⟩
  · rw [h.eq]
    exact h.collecting
  · rw [registration?_eq_none]
    intro hregistered
    exact List.disjoint_of_nodup_append h.distinct hpath hregistered
  · rw [h.eq]
    exact hadmitted

theorem enter_eq (h : Awaits start barrier (registration :: rest)) {path : String}
    (hresolve : start.tree.resolve registration.module = .ok path) :
    barrier.enter registration = barrier.enterAt path registration := by
  have hlookup : barrier.tree.resolve registration.module = .ok path := by
    rw [h.eq]
    exact hresolve
  rw [enter, hlookup]

/-- After an admitted registration the barrier waits for the others. -/
theorem store (h : Awaits start barrier (registration :: rest)) {path : String}
    (hpath : path ∈ barrier.remaining)
    (hresolve : start.tree.resolve registration.module = .ok path) (admitted : Registration) :
    Awaits start (barrier.store path admitted) rest := by
  have herase := List.perm_cons_erase hpath
  refine ⟨?_, h.collecting, ?_, ?_⟩
  · rw [Barrier.store]
    rw [h.eq]
  · have heach := h.each.trans (herase.map Except.ok)
    rw [List.map_cons, List.map_cons, hresolve] at heach
    exact heach.cons_inv
  · show (barrier.remaining.erase path
      ++ (barrier.registered ++ [(path, admitted)]).map Prod.fst).Nodup
    have hshared : (barrier.remaining.erase path
        ++ (barrier.registered ++ [(path, admitted)]).map Prod.fst).Perm
          (barrier.remaining ++ barrier.registered.map Prod.fst) := by
      rw [List.map_append, ← List.append_assoc]
      refine (List.perm_append_singleton path _).trans ?_
      rw [← List.cons_append]
      exact herase.symm.append_right _
    exact hshared.nodup_iff.2 h.distinct

theorem register_waiting {next : Registration}
    (h : Awaits start barrier (registration :: next :: rest)) {path : String}
    (hpath : path ∈ barrier.remaining)
    (hresolve : start.tree.resolve registration.module = .ok path) {admitted : Registration}
    (hadmitted : registration.admitted start.policy (start.recorded.at path) path
      = .ok admitted) :
    barrier.register registration
      = (barrier.store path admitted, .ok (.pending (rest.length + 1))) := by
  have hlength : rest.length + 1 = (barrier.remaining.erase path).length :=
    (h.store hpath hresolve admitted).length_eq
  have hothers : barrier.remaining.erase path ≠ [] := by
    rw [← List.length_pos_iff]
    omega
  rw [register, h.enter_eq hresolve, (h.admits_head hpath hadmitted).enterAt_ok,
    accept_of_others hothers, ← hlength]

theorem register_last (h : Awaits start barrier [registration]) {path : String}
    (hpath : path ∈ barrier.remaining)
    (hresolve : start.tree.resolve registration.module = .ok path) {admitted : Registration}
    (hadmitted : registration.admitted start.policy (start.recorded.at path) path
      = .ok admitted) :
    barrier.register registration
      = ({ barrier.store path admitted with phase := .aligning } : Barrier).finishing := by
  have hlength := (h.store hpath hresolve admitted).length_eq
  have hnone : barrier.remaining.erase path = [] := List.length_eq_zero_iff.1 hlength.symm
  rw [register, h.enter_eq hresolve, (h.admits_head hpath hadmitted).enterAt_ok,
    accept_of_none hnone]
  rfl

theorem register_rejected (h : Awaits start barrier (registration :: rest)) {path : String}
    (hpath : path ∈ barrier.remaining)
    (hresolve : start.tree.resolve registration.module = .ok path) {error : AlignmentError}
    (hrejected : registration.admitted start.policy (start.recorded.at path) path
      = .error error) :
    barrier.register registration
      = ({ barrier with phase := .failed error.restate }, .error (.failed error)) := by
  rw [register, h.enter_eq hresolve, (h.admits_head hpath hrejected).enterAt_error]

end Awaits

/-! ### Registrations that are all admitted -/

/-- The answers while one module after another is still missing. -/
def countdown : Nat → List (Except Stop RegistrationStatus)
  | 0 => []
  | count + 1 => .ok (.pending (count + 1)) :: countdown count

/-- The barrier once these registrations have come in, before it aligns them. -/
def collect (start barrier : Barrier) (registrations : List Registration) : Barrier :=
  { barrier with
    remaining := []
    registered := barrier.registered ++ registrations.filterMap start.keeps?
    phase := .aligning }

theorem keeps?_eq_some {start : Barrier} {registration admitted : Registration} {path : String}
    (hresolve : start.tree.resolve registration.module = .ok path)
    (hadmitted : registration.admitted start.policy (start.recorded.at path) path
      = .ok admitted) : start.keeps? registration = some (path, admitted) := by
  rw [keeps?, hresolve]
  simp only [hadmitted]
  rfl

theorem collect_store {start : Barrier} {registration admitted : Registration} {path : String}
    (hkeeps : start.keeps? registration = some (path, admitted)) (barrier : Barrier)
    (rest : List Registration) :
    start.collect (barrier.store path admitted) rest
      = start.collect barrier (registration :: rest) := by
  rw [collect, collect, List.filterMap_cons_some hkeeps, store, List.append_assoc]
  rfl

namespace Awaits

variable {start barrier : Barrier}

/-- All but the last are told to wait, and the last one aligns the build. -/
theorem registerAll_eq {registration : Registration} {rest : List Registration}
    (h : Awaits start barrier (registration :: rest))
    (hadmitted : ∀ other ∈ registration :: rest, ∀ dependency ∈ other.dependencies,
      ¬ start.policy.Rejects dependency) :
    barrier.registerAll (registration :: rest)
      = ((start.collect barrier (registration :: rest)).finishing.1,
        countdown rest.length ++ [(start.collect barrier (registration :: rest)).finishing.2]) := by
  induction rest generalizing barrier registration with
  | nil =>
    obtain ⟨path, hpath, hresolve⟩ := h.resolve_head
    obtain ⟨admitted, hresult⟩ : ∃ admitted,
        registration.admitted start.policy (start.recorded.at path) path = .ok admitted :=
      ⟨_, admitted_of_none_rejected _ path (hadmitted registration List.mem_cons_self)⟩
    have hlength := (h.store hpath hresolve admitted).length_eq
    have hnone : barrier.remaining.erase path = [] := List.length_eq_zero_iff.1 hlength.symm
    have hlast : ({ barrier.store path admitted with phase := .aligning } : Barrier)
        = start.collect (barrier.store path admitted) [] := by
      rw [collect, List.filterMap_nil, List.append_nil, Barrier.store, hnone]
    rw [registerAll, h.register_last hpath hresolve hresult, hlast,
      collect_store (keeps?_eq_some hresolve hresult)]
    rfl
  | cons next rest ih =>
    obtain ⟨path, hpath, hresolve⟩ := h.resolve_head
    obtain ⟨admitted, hresult⟩ : ∃ admitted,
        registration.admitted start.policy (start.recorded.at path) path = .ok admitted :=
      ⟨_, admitted_of_none_rejected _ path (hadmitted registration List.mem_cons_self)⟩
    have hrest := ih (h.store hpath hresolve admitted)
      fun other hother => hadmitted other (List.mem_cons_of_mem _ hother)
    rw [registerAll_cons (h.register_waiting hpath hresolve hresult), hrest,
      collect_store (keeps?_eq_some hresolve hresult)]
    rfl

end Awaits

/-- What is kept of the registrations stands under the remaining paths. -/
theorem Awaits.keys_perm {start barrier : Barrier} {registrations : List Registration}
    (h : Awaits start barrier registrations)
    (hadmitted : ∀ registration ∈ registrations, ∀ dependency ∈ registration.dependencies,
      ¬ start.policy.Rejects dependency) :
    ((registrations.filterMap start.keeps?).map Prod.fst).Perm barrier.remaining := by
  have hkey : ∀ registration ∈ registrations, (start.keeps? registration).map Prod.fst
      = (start.tree.resolve registration.module).toOption := by
    intro registration hmem
    rw [keeps?]
    cases hresolve : start.tree.resolve registration.module with
    | error error => rfl
    | ok path =>
      simp only [admitted_of_none_rejected (start.recorded.at path) path
        (hadmitted registration hmem)]
      rfl
  have hpaths : (barrier.remaining.map Except.ok).filterMap
      (Except.toOption : Except AlignmentError String → Option String) = barrier.remaining := by
    rw [List.filterMap_map]
    exact List.filterMap_some
  have heach := h.each.filterMap Except.toOption
  rw [hpaths, List.filterMap_map] at heach
  rw [List.map_filterMap, List.filterMap_congr hkey]
  exact heach

/-! ### A registration that is rejected -/

theorem registerAll_of_failed {barrier : Barrier} {error : AlignmentError}
    (hphase : barrier.phase = .failed error) (registrations : List Registration) :
    (barrier.registerAll registrations).1 = barrier ∧
      ∀ status ∈ (barrier.registerAll registrations).2, ∃ stop, status = .error stop := by
  induction registrations with
  | nil =>
    refine ⟨rfl, ?_⟩
    intro status hstatus
    cases hstatus
  | cons registration rest ih =>
    obtain ⟨stop, hregister⟩ : ∃ stop, barrier.register registration = (barrier, .error stop) := by
      rw [register, enter]
      cases barrier.tree.resolve registration.module with
      | error reason => exact ⟨_, rfl⟩
      | ok path => exact ⟨.failed error.restate, by simp only [enterAt, hphase]⟩
    rw [registerAll_cons hregister]
    refine ⟨ih.1, ?_⟩
    intro status hstatus
    rcases List.mem_cons.1 hstatus with rfl | hrest
    · exact ⟨stop, rfl⟩
    · exact ih.2 status hrest

/-- What is left when one registration of a build has been rejected: the authority has not been
asked, nobody was told that the build is complete, and the error names a dependency that was
rejected. -/
structure FailsUnresolved (start : Barrier) (registrations : List Registration)
    (results : Barrier × List (Except Stop RegistrationStatus)) : Prop where
  asked : results.1.asked = start.asked
  answers : ∀ status ∈ results.2, ∀ handle, status ≠ .ok (.complete handle)
  phase : ∃ registration ∈ registrations, ∃ dependency ∈ registration.dependencies,
    start.policy.Rejects dependency ∧ ∃ path, start.tree.resolve registration.module = .ok path ∧
      results.1.phase = .failed (.unresolvableDependency path dependency.declared.display)

namespace Awaits

variable {start barrier : Barrier}

/-- The first rejected registration fails the build, before it can be aligned. -/
theorem registerAll_rejected {registrations : List Registration}
    (h : Awaits start barrier registrations)
    (hrejected : ∃ registration ∈ registrations, ∃ dependency ∈ registration.dependencies,
      start.policy.Rejects dependency) :
    FailsUnresolved start registrations (barrier.registerAll registrations) := by
  induction registrations generalizing barrier with
  | nil =>
    obtain ⟨registration, hmem, -⟩ := hrejected
    cases hmem
  | cons registration rest ih =>
    obtain ⟨path, hpath, hresolve⟩ := h.resolve_head
    by_cases hhead : ∃ dependency ∈ registration.dependencies, start.policy.Rejects dependency
    · obtain ⟨dependency, hmem, hrejects, hresult⟩ :=
        admitted_of_rejected (start.recorded.at path) path hhead
      -- An error about a dependency is kept as it is.
      obtain ⟨failed, hfailed, hasked, hregister⟩ : ∃ failed : Barrier,
          failed.phase = .failed (.unresolvableDependency path dependency.declared.display) ∧
          failed.asked = barrier.asked ∧ barrier.register registration = (failed, .error
            (.failed (.unresolvableDependency path dependency.declared.display))) :=
        ⟨{ barrier with
            phase := .failed (.unresolvableDependency path dependency.declared.display) },
          rfl, rfl, h.register_rejected hpath hresolve hresult⟩
      obtain ⟨hbarrier, hanswers⟩ := registerAll_of_failed hfailed rest
      rw [registerAll_cons hregister]
      refine ⟨?_, ?_, registration, List.mem_cons_self, dependency, hmem, hrejects, path,
        hresolve, ?_⟩
      · show (failed.registerAll rest).1.asked = start.asked
        rw [hbarrier, hasked, h.eq]
      · intro status hstatus handle
        rcases List.mem_cons.1 hstatus with rfl | hrest
        · simp
        · obtain ⟨stop, rfl⟩ := hanswers status hrest
          simp
      · show (failed.registerAll rest).1.phase = _
        rw [hbarrier, hfailed]
    · obtain ⟨admitted, hresult⟩ : ∃ admitted,
          registration.admitted start.policy (start.recorded.at path) path = .ok admitted := by
        refine ⟨_, admitted_of_none_rejected _ path ?_⟩
        intro dependency hmem hrejects
        exact hhead ⟨dependency, hmem, hrejects⟩
      have hothers : ∃ other ∈ rest, ∃ dependency ∈ other.dependencies,
          start.policy.Rejects dependency := by
        obtain ⟨other, hother, hrejects⟩ := hrejected
        rcases List.mem_cons.1 hother with rfl | hrest
        · exact absurd hrejects hhead
        · exact ⟨other, hrest, hrejects⟩
      have hrest := ih (h.store hpath hresolve admitted) hothers
      -- The rejected registration is still to come, so this one has to wait.
      cases rest with
      | nil =>
        obtain ⟨other, hother, -⟩ := hothers
        cases hother
      | cons next rest =>
        rw [registerAll_cons (h.register_waiting hpath hresolve hresult)]
        generalize (barrier.store path admitted).registerAll (next :: rest) = results at hrest ⊢
        refine ⟨hrest.asked, ?_, ?_⟩
        · intro status hstatus handle
          rcases List.mem_cons.1 hstatus with rfl | hlater
          · simp
          · exact hrest.answers status hlater handle
        · obtain ⟨other, hother, hphase⟩ := hrest.phase
          exact ⟨other, List.mem_cons_of_mem _ hother, hphase⟩

end Awaits

/-! ### All orders of the registrations of a build -/

/-- Two ways of registering a build that come out the same. -/
structure SameResults (first second : Barrier × List (Except Stop RegistrationStatus)) : Prop where
  answers : first.2 = second.2
  last : ∃ status, first.2.getLast? = some status ∧ second.2.getLast? = some status ∧
    ∀ remaining, status ≠ .ok (.pending remaining)
  asked : first.1.asked = second.1.asked
  finishedHandle : first.1.finishedHandle = second.1.finishedHandle
  finishedModel : first.1.finishedModel = second.1.finishedModel

variable {tree : ModuleTree} {aligner : Aligner} {policy : BarrierPolicy} {barrier : Barrier}

/-- Before anyone has registered, a barrier awaits one registration for every module. -/
theorem Opened.awaits (opened : Opened tree aligner policy barrier) (built : tree.Built)
    {registrations : List Registration}
    (each : (registrations.map fun registration => tree.resolve registration.module).Perm
      (tree.paths.map .ok)) : Awaits barrier barrier registrations := by
  have ready := opened.ready built
  have horder : barrier.order = tree.paths := by rw [opened.eq]
  refine ⟨rfl, ready.phase, ?_, ?_⟩
  · rw [opened.tree_eq, ready.remaining, horder]
    exact each
  · rw [ready.registered, ready.remaining, List.map_nil, List.append_nil]
    exact ready.distinct

theorem Awaits.perm {start : Barrier} {first second : List Registration}
    (h : Awaits start barrier first) (hperm : second.Perm first) : Awaits start barrier second :=
  ⟨h.eq, h.collecting, (hperm.map _).trans h.each, h.distinct⟩

/-- Two orders of registrations that are all admitted come out the same. -/
theorem Awaits.sameResults {start : Barrier} {first second : List Registration}
    (h : Awaits start barrier first) (hne : first ≠ [])
    (hadmitted : ∀ registration ∈ first, ∀ dependency ∈ registration.dependencies,
      ¬ start.policy.Rejects dependency) (hperm : second.Perm first) :
    SameResults (barrier.registerAll first) (barrier.registerAll second) := by
  have hadmitted' : ∀ registration ∈ second, ∀ dependency ∈ registration.dependencies,
      ¬ start.policy.Rejects dependency :=
    fun registration hmem => hadmitted registration (hperm.mem_iff.1 hmem)
  have hdistinct : ((start.collect barrier first).registered.map Prod.fst).Nodup := by
    show ((barrier.registered ++ first.filterMap start.keeps?).map Prod.fst).Nodup
    rw [List.map_append]
    have hkeys := (h.keys_perm hadmitted).append_left (barrier.registered.map Prod.fst)
    exact (hkeys.trans List.perm_append_comm).nodup_iff.2 h.distinct
  have hregistered : (start.collect barrier second).registered.Perm
      (start.collect barrier first).registered :=
    (hperm.filterMap start.keeps?).append_left barrier.registered
  have hsecond : start.collect barrier second
      = { start.collect barrier first with
          registered := (start.collect barrier second).registered } := rfl
  have hfinishing := finishing_congr (inOrder_congr hdistinct hregistered)
  rw [← hsecond] at hfinishing
  obtain ⟨registration, rest, rfl⟩ := List.exists_cons_of_ne_nil hne
  have hne' : second ≠ [] := by
    rintro rfl
    exact hne (List.nil_perm.1 hperm)
  obtain ⟨registration', rest', rfl⟩ := List.exists_cons_of_ne_nil hne'
  have hlength : rest'.length = rest.length := by
    have hlengths := hperm.length_eq
    rw [List.length_cons, List.length_cons] at hlengths
    omega
  have hpending := finishing_ne_pending (start.collect barrier (registration :: rest))
  rw [h.registerAll_eq hadmitted, (h.perm hperm).registerAll_eq hadmitted', hfinishing, hlength]
  generalize (start.collect barrier (registration :: rest)).finishing = results at hpending ⊢
  exact ⟨rfl, ⟨results.2, List.getLast?_concat, List.getLast?_concat, hpending⟩, rfl, rfl, rfl⟩

theorem Opened.rejects_iff (opened : Opened tree aligner policy barrier) (dependency : Dependency) :
    barrier.policy.Rejects dependency ↔ policy.Rejects dependency := by
  rw [opened.policy_eq]
  exact Iff.rfl

/-- Every module of a built tree registers once, in any order. Where no dependency is rejected, all
orders come out the same. Where one is rejected, the build fails for such a dependency in every
order, and the authority is not asked. -/
theorem registerAll_perm (built : tree.Built) (opened : Opened tree aligner policy barrier)
    {registrations : List Registration}
    (each : (registrations.map fun registration => tree.resolve registration.module).Perm
      (tree.paths.map .ok)) :
    ((∀ registration ∈ registrations, ∀ dependency ∈ registration.dependencies,
        ¬ policy.Rejects dependency) →
      ∀ first second, first.Perm registrations → second.Perm registrations →
        SameResults (barrier.registerAll first) (barrier.registerAll second)) ∧
    ((∃ registration ∈ registrations, ∃ dependency ∈ registration.dependencies,
        policy.Rejects dependency) →
      ∀ order, order.Perm registrations →
        (barrier.registerAll order).1.asked = [] ∧
        (∀ status ∈ (barrier.registerAll order).2, ∀ handle, status ≠ .ok (.complete handle)) ∧
        ∃ registration ∈ registrations, ∃ dependency ∈ registration.dependencies,
          policy.Rejects dependency ∧ ∃ path, tree.resolve registration.module = .ok path ∧
            (barrier.registerAll order).1.finishedModel
              = .error (.unresolvableDependency path dependency.declared.display)) := by
  have h := opened.awaits built each
  constructor
  · intro hadmitted first second hfirst hsecond
    have hne : first ≠ [] := by
      rintro rfl
      have hlength := (h.perm hfirst).length_eq
      have hpositive := List.length_pos_iff.2 ((opened.ready built).nonempty)
      rw [(opened.ready built).remaining, List.length_nil] at hlength
      omega
    refine (h.perm hfirst).sameResults hne ?_ (hsecond.trans hfirst.symm)
    intro registration hmem dependency hdependency
    rw [opened.rejects_iff]
    exact hadmitted registration (hfirst.mem_iff.1 hmem) dependency hdependency
  · intro hfound order horder
    obtain ⟨registration, hmem, dependency, hdependency, hrejects⟩ := hfound
    have hrejected : ∃ registration ∈ order, ∃ dependency ∈ registration.dependencies,
        barrier.policy.Rejects dependency :=
      ⟨registration, horder.mem_iff.2 hmem, dependency, hdependency,
        (opened.rejects_iff dependency).2 hrejects⟩
    have hfails := (h.perm horder).registerAll_rejected hrejected
    obtain ⟨culprit, hculprit, cause, hcause, hcauses, path, hresolve, hphase⟩ := hfails.phase
    refine ⟨hfails.asked.trans (opened.ready built).asked, hfails.answers, culprit,
      horder.mem_iff.1 hculprit, cause, hcause, (opened.rejects_iff cause).1 hcauses, path, ?_, ?_⟩
    · rw [← opened.tree_eq]
      exact hresolve
    · rw [finishedModel, finishedHandle, hphase]
      rfl

open SmallBuild (registrationOf) in
/-- The two modules of a small build in both orders, with and without a dependency that could not be
resolved. -/
theorem registerAll_perm_of_two :
    let app := registrationOf ":" "app" [.exact ⟨"org.lib", "base", "1.0"⟩]
    let core := registrationOf "core" "core" []
    let broken := registrationOf "core" "core" [⟨⟨"org.lib", "base", "1.0"⟩, none⟩]
    SmallBuild.tree.Built ∧ Opened SmallBuild.tree SmallBuild.aligner {} SmallBuild.barrier ∧
      SameResults (SmallBuild.barrier.registerAll [app, core])
        (SmallBuild.barrier.registerAll [core, app]) ∧
      (SmallBuild.barrier.registerAll [broken, app]).1.asked = [] := by
  intro app core broken
  have each : ∀ dependencies, ([app, registrationOf "core" "core" dependencies].map
      fun registration => SmallBuild.tree.resolve registration.module).Perm
        (SmallBuild.tree.paths.map Except.ok) := by
    intro dependencies
    show [SmallBuild.tree.resolve ":", SmallBuild.tree.resolve "core"].Perm [.ok ":", .ok ":core"]
    rw [SmallBuild.resolve_app, SmallBuild.resolve_core]
  have hadmitted : ∀ registration ∈ [app, core], ∀ dependency ∈ registration.dependencies,
      ¬ ({} : BarrierPolicy).Rejects dependency := by
    intro registration hmem dependency hdependency hrejects
    rcases List.mem_pair.1 hmem with rfl | rfl
    · rw [List.mem_singleton.1 hdependency] at hrejects
      exact absurd hrejects.2.1 (by simp [Dependency.exact])
    · cases hdependency
  have hsame := (registerAll_perm SmallBuild.built SmallBuild.opened (each [])).1 hadmitted
    [app, core] [core, app] (List.Perm.refl _) (List.Perm.swap _ _ _)
  have hrejected : ∃ registration ∈ [app, broken], ∃ dependency ∈ registration.dependencies,
      ({} : BarrierPolicy).Rejects dependency :=
    ⟨broken, List.mem_cons_of_mem _ (List.mem_singleton.2 rfl), _, List.mem_singleton.2 rfl,
      by decide, rfl, rfl⟩
  have hfails := (registerAll_perm SmallBuild.built SmallBuild.opened
    (each [⟨⟨"org.lib", "base", "1.0"⟩, none⟩])).2 hrejected [broken, app] (List.Perm.swap _ _ _)
  exact ⟨SmallBuild.built, SmallBuild.opened, hsame, hfails.1⟩

end Barrier

end BuildAlignment
