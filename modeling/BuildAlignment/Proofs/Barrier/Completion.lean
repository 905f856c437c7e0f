import BuildAlignment.Proofs.Barrier.Acceptance
import BuildAlignment.Proofs.Barrier.Admission

/-!
# Completed builds

When a build is complete, its tree and its handle are what an alignment made of the registrations
that were accepted, one for every module.

* `Session.Result` ties every success to the alignment that made it. By `Session.Result.run` it
  holds after every schedule.
* `Session.registered` lists the accepted registrations as they came in, in path order, and
  `Barrier.sift` is what a barrier keeps of one of them.
* `Session.outcome_of_completed`: a completed build is the outcome of its sifted registrations.
* `Session.of_mem_asked`: what the authority is asked comes from these as well, also in a build that
  fails later.
-/

namespace BuildAlignment

namespace Session

variable {start : Barrier} {session : Session} {call : Nat}

/-! ### What led to a success -/

/-- A call has aligned the build with this handle, whether that is recorded already or not. -/
def Succeeded (session : Session) (handle : AlignmentHandle) : Prop :=
  session.barrier.phase = .completed handle ∨
    ∃ call, session.progress call = .aligned (.ok handle)

/-- A handle is the outcome of what the barrier has collected from all modules, and its tree is
there. -/
structure Made (start : Barrier) (session : Session) (handle : AlignmentHandle) : Prop where
  outcome : start.outcome session.barrier.inOrder = .ok (session.barrier.tree, handle)
  asked : session.barrier.asked = start.questions session.barrier.inOrder
  last : ∃ last, session.accepted[start.order.length - 1]? = some last

/-- What made a handle does not depend on where the calls stand. -/
theorem Made.move {handle : AlignmentHandle} (h : Made start session handle) (call : Nat)
    (progress : Progress) : Made start (session.move call progress) handle :=
  ⟨h.outcome, h.asked, h.last⟩

/-- Every success has been made by an alignment. -/
def Result (start : Barrier) (session : Session) : Prop :=
  ∀ handle, session.Succeeded handle → Made start session handle

theorem not_succeeded_of_collecting (steady : Steady start session)
    (hphase : session.barrier.phase = .collecting) (handle : AlignmentHandle) :
    ¬ session.Succeeded handle := by
  rintro (hcompleted | ⟨call, haligned⟩)
  · rw [hphase] at hcompleted
    cases hcompleted
  · exact steady.quiet (by rw [hphase]; simp) call (by rw [haligned]; trivial)

/-- A call that moves on without a success of its own adds none. -/
theorem succeeded_of_move {progress : Progress} {handle : AlignmentHandle}
    (h : (session.move call progress).Succeeded handle)
    (hidle : ∀ handle, progress ≠ .aligned (.ok handle)) : session.Succeeded handle := by
  rcases h with hcompleted | ⟨other, haligned⟩
  · exact .inl hcompleted
  · rw [progress_move] at haligned
    split at haligned
    · exact absurd haligned (hidle handle)
    · exact .inr ⟨other, haligned⟩

namespace Result

theorem published (steady : Steady start session) (tally : Tally start session)
    {modules : List Registered} (collected : session.progress call = .collected modules) :
    Result start (session.publish call modules) := by
  have hbusy : (session.progress call).Busy := by rw [collected]; trivial
  have hphase := steady.aligning_of_busy hbusy
  have htree := steady.tree_of_busy hbusy (by rw [collected]; simp)
  obtain ⟨hmodules, hrequests⟩ := tally.collected call modules collected
  obtain ⟨path, hlast⟩ := tally.aligning call (.inl (by rw [collected]; trivial))
  have houtcome := Barrier.outcome_congr steady.alike htree modules
  have hasked : session.barrier.asked = [] := by
    rw [tally.asked, hrequests]
    rfl
  rw [publish, Barrier.publish_eq]
  rintro handle (hcompleted | ⟨other, haligned⟩)
  · exact absurd (hphase.symm.trans hcompleted) (by simp)
  · rw [progress_move] at haligned
    split at haligned
    · have hresult : (session.barrier.outcome modules).map Prod.snd = .ok handle :=
        Progress.aligned.inj haligned
      refine ⟨?_, ?_, ⟨_, hlast⟩⟩
      · show start.outcome session.barrier.inOrder
          = .ok (session.barrier.treeAfter modules, handle)
        rw [← hmodules, ← houtcome, Barrier.treeAfter]
        cases hpublished : session.barrier.outcome modules with
        | error stop =>
          rw [hpublished] at hresult
          cases hresult
        | ok made =>
          rw [hpublished] at hresult
          cases hresult
          rfl
      · show session.barrier.asked ++ session.barrier.questions modules
          = start.questions session.barrier.inOrder
        rw [hasked, ← hmodules, Barrier.questions_congr steady.alike, List.nil_append]
    · rename_i hne
      exact absurd (steady.alone other call (by rw [haligned]; trivial) hbusy) hne

theorem settled (h : Result start session) (steady : Steady start session)
    {result : Except Stop AlignmentHandle} (aligned : session.progress call = .aligned result) :
    Result start (session.settle call result) := by
  have hbusy : (session.progress call).Busy := by rw [aligned]; trivial
  have hphase := steady.aligning_of_busy hbusy
  -- Only a success of this call can be told afterwards.
  have hmine : ∀ handle, (session.settle call result).Succeeded handle → result = .ok handle := by
    rintro handle (hcompleted | ⟨other, haligned⟩)
    · replace hcompleted : (session.barrier.settle result).1.phase = .completed handle := hcompleted
      rcases result with (error | _) | made
      · cases hcompleted
      · exact absurd (hphase.symm.trans hcompleted) (by simp)
      · cases hcompleted
        rfl
    · rw [settle, progress_move] at haligned
      split at haligned
      · cases haligned
      · rename_i hne
        exact absurd (steady.alone other call (by rw [haligned]; trivial) hbusy) hne
  intro handle hsucceeded
  obtain rfl := hmine handle hsucceeded
  have hmade := h handle (.inr ⟨call, aligned⟩)
  exact ⟨hmade.outcome, hmade.asked, hmade.last⟩

theorem step (h : Result start session) (steady : Steady start session)
    (tally : Tally start session) {next : Session} (taken : Step session call next) :
    Result start next := by
  cases taken with
  | idle => exact h
  | unknown =>
    intro handle hnext
    exact (h handle (succeeded_of_move hnext (by simp))).move _ _
  | found =>
    intro handle hnext
    exact (h handle (succeeded_of_move hnext (by simp))).move _ _
  | refused =>
    intro handle hnext
    exact (h handle (succeeded_of_move hnext (by simp))).move _ _
  | rejected _ _ admits =>
    intro handle hnext
    rcases succeeded_of_move hnext (by simp) with hcompleted | haligned
    · cases hcompleted
    · exact absurd (.inr haligned) (not_succeeded_of_collecting steady admits.phase handle)
  | waiting _ _ admits _ =>
    intro handle hnext
    rcases succeeded_of_move hnext (by simp) with hcompleted | haligned
    · exact absurd (.inl hcompleted) (not_succeeded_of_collecting steady admits.phase handle)
    · exact absurd (.inr haligned) (not_succeeded_of_collecting steady admits.phase handle)
  | last _ _ admits _ =>
    intro handle hnext
    rcases succeeded_of_move hnext (by simp) with hcompleted | haligned
    · cases hcompleted
    · exact absurd (.inr haligned) (not_succeeded_of_collecting steady admits.phase handle)
  | published collected => exact published steady tally collected
  | settled aligned => exact h.settled steady aligned

theorem run (ready : start.Ready) (registrations : List Registration) (schedule : List Nat) :
    Result start ((Session.start start registrations).run schedule) := by
  have hall : Steady start ((Session.start start registrations).run schedule) ∧
      Tally start ((Session.start start registrations).run schedule) ∧
      Result start ((Session.start start registrations).run schedule) := by
    refine run_induction
      (motive := fun moved => Steady start moved ∧ Tally start moved ∧ Result start moved) ?_ ?_
      schedule
    · intro before call next hinvariant taken
      obtain ⟨hsteady, htally, hresult⟩ := hinvariant
      exact ⟨hsteady.step taken, htally.step ready hsteady taken,
        hresult.step hsteady htally taken⟩
    · have hsteady := steady_start ready.phase (ready.remaining ▸ ready.nonempty) registrations
      refine ⟨hsteady, tally_start ready registrations, ?_⟩
      intro handle hsucceeded
      exact absurd hsucceeded (not_succeeded_of_collecting hsteady ready.phase handle)
  exact hall.2.2

end Result

/-! ### The registrations of a completed build -/

def registration? (session : Session) (path : String) : Option Registration :=
  (session.accepted.find? fun entry => entry.2 == path).bind fun entry =>
    session.registrations[entry.1]?

/-- The accepted registrations as they came in, in the order of some paths. -/
def registered (session : Session) (paths : List String) : List Registered :=
  paths.filterMap fun path =>
    (session.registration? path).map fun registration => (path, registration)

end Session

theorem Barrier.of_finishedHandle_eq_ok {barrier : Barrier} {handle : AlignmentHandle}
    (h : barrier.finishedHandle = .ok handle) : barrier.phase = .completed handle := by
  rw [finishedHandle] at h
  cases hphase : barrier.phase with
  | completed made =>
    rw [hphase] at h
    cases h
    rfl
  | failed error =>
    rw [hphase] at h
    cases h
  | collecting =>
    rw [hphase] at h
    cases h
  | aligning =>
    rw [hphase] at h
    cases h

theorem Barrier.finished_of_completed {barrier : Barrier} {handle : AlignmentHandle}
    (h : barrier.phase = .completed handle) :
    barrier.finishedHandle = .ok handle ∧ barrier.finishedModel = .ok barrier.tree := by
  have hhandle : barrier.finishedHandle = .ok handle := by rw [finishedHandle, h]
  refine ⟨hhandle, ?_⟩
  rw [finishedModel, hhandle]
  rfl

/-- What a barrier keeps of a registration that is admitted at a path. -/
def Barrier.sift (barrier : Barrier) (entry : Registered) : Registered :=
  (entry.1, { entry.2 with
    dependencies := (entry.2.dependencies.filter Dependency.takesPart).map
      (Dependency.seed (barrier.recorded.at entry.1)) })

namespace Session

variable {start : Barrier} {session : Session}

/-- For an accepted path there is one registration, of which the barrier keeps what it sifts. -/
theorem Tally.registration?_of_accepted (h : Tally start session) (ready : start.Ready)
    {path : String} (haccepted : path ∈ session.accepted.map Prod.snd) :
    ∃ registration, session.registration? path = some registration ∧
      start.tree.resolve registration.module = .ok path ∧
      session.barrier.registration? path = some (start.sift (path, registration)).2 := by
  have hpaths := h.paths ready
  rw [← h.map_fst_registered] at haccepted
  obtain ⟨⟨known, kept⟩, hentry, rfl⟩ := List.mem_map.1 haccepted
  obtain ⟨⟨call, path⟩, hcall, hpath, registration, hregistered, hresolve, hadmitted⟩ :=
    h.exists_of_mem_registered hentry
  replace hpath : known = path := hpath
  subst hpath
  obtain ⟨-, hkept⟩ := of_admitted_eq_ok hadmitted
  refine ⟨registration, ?_, hresolve, ?_⟩
  · rw [Session.registration?]
    cases hfound : session.accepted.find? fun entry => entry.2 == known with
    | none =>
      rw [List.find?_eq_none] at hfound
      exact absurd (beq_self_eq_true known) (hfound _ hcall)
    | some found =>
      have hkey : found.2 = known := by simpa using List.find?_some hfound
      have hsame := List.inj_on_of_nodup_map hpaths (List.mem_of_find?_eq_some hfound) hcall hkey
      rw [hsame]
      exact hregistered
  · have hdistinct : (session.barrier.registered.map Prod.fst).Nodup := by
      rw [h.map_fst_registered]
      exact hpaths
    exact (Barrier.registration?_of_mem hdistinct hentry).trans (congrArg some hkept)

/-- The registration of a path comes from an accepted call that named the path's module. -/
theorem Tally.of_registration?_eq_some (h : Tally start session) (ready : start.Ready)
    {path : String} {registration : Registration}
    (hfound : session.registration? path = some registration) :
    ∃ call, (call, path) ∈ session.accepted ∧
      session.registrations[call]? = some registration ∧
      start.tree.resolve registration.module = .ok path := by
  have hkept := hfound
  rw [Session.registration?] at hfound
  obtain ⟨⟨call, known⟩, hfind, hregistered⟩ := Option.bind_eq_some_iff.1 hfound
  have hmem := List.mem_of_find?_eq_some hfind
  have hkey : known = path := by simpa using List.find?_some hfind
  subst hkey
  obtain ⟨same, hsame, hresolve, -⟩ :=
    h.registration?_of_accepted ready (List.mem_map_of_mem hmem)
  rw [hkept] at hsame
  cases hsame
  exact ⟨call, hmem, hregistered, hresolve⟩

/-- The barrier has collected the sifted registrations of all modules, in path order. -/
theorem Tally.inOrder_eq (h : Tally start session) (ready : start.Ready)
    (steady : Steady start session) {last : Nat × String}
    (hlast : session.accepted[start.order.length - 1]? = some last) :
    session.barrier.inOrder = (session.registered start.order).map start.sift ∧
      (session.registered start.order).map Prod.fst = start.order := by
  have hfound : ∀ path ∈ start.order, ∃ registration,
      session.registration? path = some registration ∧
        session.barrier.registration? path = some (start.sift (path, registration)).2 := by
    intro path hpath
    obtain ⟨registration, hregistration, -, hkept⟩ :=
      h.registration?_of_accepted ready (h.mem_accepted_of_last hlast hpath)
    exact ⟨registration, hregistration, hkept⟩
  constructor
  · rw [Barrier.inOrder, steady.alike.order, eraseDups_of_nodup ready.distinct, registered,
      List.map_filterMap]
    refine List.filterMap_congr ?_
    intro path hpath
    obtain ⟨registration, hregistration, hkept⟩ := hfound path hpath
    rw [hregistration, hkept]
    rfl
  · have hself : ∀ path ∈ start.order, Option.map Prod.fst
        ((session.registration? path).map fun registration => (path, registration))
          = some path := by
      intro path hpath
      obtain ⟨registration, hregistration, -⟩ := hfound path hpath
      rw [hregistration]
      rfl
    rw [registered, List.map_filterMap, List.filterMap_congr hself]
    exact List.filterMap_some

/-- The entries are one registration for every module of a tree, each accepted from a call that
named the module. -/
structure Registers (session : Session) (tree : ModuleTree) (entries : List Registered) : Prop where
  paths : entries.map Prod.fst = tree.paths
  calls : ∀ entry ∈ entries, ∃ call, (call, entry.1) ∈ session.accepted ∧
    session.registrations[call]? = some entry.2 ∧ tree.resolve entry.2.module = .ok entry.1

/-- Once every module has registered, the accepted registrations are one for each of them. -/
theorem Tally.registers {tree : ModuleTree} {aligner : Aligner} {policy : BarrierPolicy}
    (h : Tally start session) (built : tree.Built)
    (opened : Barrier.Opened tree aligner policy start) (steady : Steady start session)
    {last : Nat × String} (hlast : session.accepted[start.order.length - 1]? = some last) :
    session.barrier.inOrder = (session.registered tree.paths).map start.sift ∧
      session.Registers tree (session.registered tree.paths) := by
  have ready := opened.ready built
  have horder : start.order = tree.paths := by rw [opened.eq]
  obtain ⟨hinOrder, hpaths⟩ := h.inOrder_eq ready steady hlast
  rw [horder] at hinOrder hpaths
  refine ⟨hinOrder, ⟨hpaths, ?_⟩⟩
  intro entry hentry
  obtain ⟨path, -, hfound⟩ := List.mem_filterMap.1 hentry
  obtain ⟨registration, hregistration, rfl⟩ := Option.map_eq_some_iff.1 hfound
  rw [← opened.tree_eq]
  exact h.of_registration?_eq_some ready hregistration

/-- A completed build is the outcome of its sifted registrations, one for every module. -/
theorem outcome_of_completed {tree : ModuleTree} {aligner : Aligner} {policy : BarrierPolicy}
    (built : tree.Built) (opened : Barrier.Opened tree aligner policy start)
    (registrations : List Registration) (schedule : List Nat)
    {handle : AlignmentHandle}
    (hsession : session = (Session.start start registrations).run schedule)
    (hphase : session.barrier.phase = .completed handle) :
    start.outcome ((session.registered tree.paths).map start.sift)
        = .ok (session.barrier.tree, handle) ∧
      session.barrier.asked = start.questions ((session.registered tree.paths).map start.sift) ∧
      session.Registers tree (session.registered tree.paths) := by
  have ready := opened.ready built
  have steady := opened.steady registrations schedule
  have tally :=
    (tally_start ready registrations).run ready (opened.steady registrations []) schedule
  have hresult := Result.run ready registrations schedule
  rw [← hsession] at steady tally hresult
  obtain ⟨houtcome, hasked, last, hlast⟩ := hresult handle (.inl hphase)
  obtain ⟨hinOrder, registers⟩ := tally.registers built opened steady hlast
  rw [hinOrder] at houtcome hasked
  exact ⟨houtcome, hasked, registers⟩

/-- The tree and the handle of a completed build come from an answer that was adjusted and
written. -/
theorem success_of_completed {tree : ModuleTree} {aligner : Aligner} {policy : BarrierPolicy}
    (built : tree.Built) (opened : Barrier.Opened tree aligner policy start)
    (registrations : List Registration) (schedule : List Nat)
    (hsession : session = (Session.start start registrations).run schedule)
    {handle : AlignmentHandle} (hhandle : session.barrier.finishedHandle = .ok handle)
    {result : ModuleTree} (hmodel : session.barrier.finishedModel = .ok result) :
    session.Registers tree (session.registered tree.paths) ∧
      session.barrier.asked = start.questions ((session.registered tree.paths).map start.sift) ∧
      ∃ combined answer adjusted, start.Success ((session.registered tree.paths).map start.sift)
        combined answer adjusted result handle := by
  have hphase : session.barrier.phase = .completed handle := Barrier.of_finishedHandle_eq_ok hhandle
  have hresult : session.barrier.tree = result := by
    rw [Barrier.finishedModel, hhandle] at hmodel
    exact Except.ok.inj hmodel
  obtain ⟨houtcome, hasked, registers⟩ :=
    outcome_of_completed built opened registrations schedule hsession hphase
  rw [hresult] at houtcome
  exact ⟨registers, hasked, Barrier.of_outcome_eq_ok houtcome⟩

end Session

end BuildAlignment
