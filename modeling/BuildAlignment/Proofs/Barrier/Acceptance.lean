import BuildAlignment.Proofs.Barrier.Collected
import BuildAlignment.Proofs.Barrier.Phases
import Mathlib.Data.List.Forall2

/-!
# Every module counts once

Of all the calls that register modules, one is accepted for every module, and the last of these
aligns the build.

* `Barrier.Stored` ties an accepted call to what the barrier keeps of it.
* `Session.Tally` is the invariant: the accepted and the remaining paths share the modules out.
* `Session.Tally.run`: it holds after every schedule.
* `Session.alignsOnce_run`: the build is aligned at most once, from one registration for every
  module.
-/

namespace BuildAlignment

open AlignmentError (FailsBuild)

/-! ### Accepted calls -/

/-- What the barrier keeps of an accepted call. -/
structure Barrier.Stored (start : Barrier) (registrations : List Registration) (call : Nat × String)
    (entry : Registered) : Prop where
  path : entry.1 = call.2
  registration : ∃ registration, registrations[call.1]? = some registration ∧
    start.tree.resolve registration.module = .ok call.2 ∧
    registration.admitted start.policy (start.recorded.at call.2) call.2 = .ok entry.2

/-- The call has come past the check of its registration. -/
def Progress.Checked : Progress → Prop
  | .arrived => False
  | .located _ => False
  | .collected _ => True
  | .aligned _ => True
  | .answered _ => True

/-- The call aligns the build, or has done so with success. -/
def Progress.Aligns : Progress → Prop
  | .arrived => False
  | .located _ => False
  | .collected _ => True
  | .aligned _ => True
  | .answered (.ok (.pending _)) => False
  | .answered (.ok (.complete _)) => True
  | .answered (.error _) => False

namespace Session

/-! ### Calls that were stored -/

/-- What a call comes to when its registration is stored: it waits for the modules that are left, or
it has collected the build. -/
structure Stores (left : List String) (modules : List Registered) (progress : Progress) : Prop where
  others : left ≠ [] → progress = .answered (.ok (.pending left.length))
  none : left = [] → progress = .collected modules

namespace Stores

variable {left : List String} {modules : List Registered} {progress : Progress}

theorem checked (h : Stores left modules progress) : progress.Checked := by
  by_cases hleft : left = []
  · rw [h.none hleft]
    trivial
  · rw [h.others hleft]
    trivial

theorem ne_error (h : Stores left modules progress) (stop : Stop) :
    progress ≠ .answered (.error stop) := by
  by_cases hleft : left = []
  · rw [h.none hleft]
    simp
  · rw [h.others hleft]
    simp

/-- A call that collects the build has left no module out. -/
theorem eq_nil_of_aligns (h : Stores left modules progress) (haligns : progress.Aligns) :
    left = [] := by
  by_contra hleft
  rw [h.others hleft] at haligns
  exact haligns

theorem eq_of_collected (h : Stores left modules progress) {collected : List Registered}
    (hcollected : progress = .collected collected) : collected = modules := by
  have hleft : left = [] := h.eq_nil_of_aligns (by rw [hcollected]; trivial)
  rw [h.none hleft] at hcollected
  exact (Progress.collected.inj hcollected).symm

end Stores

/-! ### The tally of a session -/

/-- The accepted calls of a session, compared with what the barrier has and has handed out. -/
structure Tally (start : Barrier) (session : Session) : Prop where
  /-- Every module is either remaining or has registered, and not twice. -/
  shared : (session.barrier.remaining ++ session.accepted.map Prod.snd).Perm start.order
  calls : (session.accepted.map Prod.fst).Nodup
  stored : List.Forall₂ (Barrier.Stored start session.registrations) session.accepted
    session.barrier.registered
  checked : ∀ call ∈ session.accepted.map Prod.fst, (session.progress call).Checked
  located : session.barrier.phase = .collecting →
    ∀ call path, session.progress call = .located path →
      ∀ registration, session.registrations[call]? = some registration →
        start.tree.resolve registration.module = .ok path
  pending : ∀ index call path, session.accepted[index]? = some (call, path) →
    index + 1 < start.order.length →
    session.progress call = .answered (.ok (.pending (start.order.length - (index + 1))))
  aligning : ∀ call, (session.progress call).Aligns ∨ call ∈ session.requests.map Prod.fst →
    ∃ path, session.accepted[start.order.length - 1]? = some (call, path)
  fails : ∀ call ∈ session.accepted.map Prod.fst, ∀ error,
    session.progress call = .answered (.error (.failed error)) → error.FailsBuild
  collected : ∀ call modules, session.progress call = .collected modules →
    modules = session.barrier.inOrder ∧ session.requests = []
  requested : ∀ entry ∈ session.requests,
    combinedRequest start.policy session.barrier.inOrder = .ok entry.2
  once : session.requests.length ≤ 1
  asked : session.barrier.asked
    = session.requests.flatMap fun entry => (start.aligner.align entry.2).asked.toList

variable {start : Barrier} {session : Session} {call : Nat}

theorem tally_start (ready : start.Ready) (registrations : List Registration) :
    Tally start (.start start registrations) where
  shared := by
    show (start.remaining ++ []).Perm start.order
    rw [List.append_nil, ready.remaining]
  calls := List.nodup_nil
  stored := by
    show List.Forall₂ _ [] start.registered
    rw [ready.registered]
    exact .nil
  checked := by
    intro call hcall
    cases hcall
  located := by
    intro _ call path hlocated
    cases hlocated
  pending := by
    intro index call path haccepted
    cases haccepted
  aligning := by
    rintro call (hbusy | hrequested)
    · exact hbusy.elim
    · cases hrequested
  fails := by
    intro call hcall
    cases hcall
  collected := by
    intro call modules hcollected
    cases hcollected
  requested := by
    intro entry hentry
    cases hentry
  once := Nat.zero_le 1
  asked := ready.asked

namespace Tally

theorem count (h : Tally start session) :
    session.barrier.remaining.length + session.accepted.length = start.order.length := by
  have hlength := h.shared.length_eq
  rw [List.length_append, List.length_map] at hlength
  exact hlength

theorem paths (h : Tally start session) (ready : start.Ready) :
    (session.accepted.map Prod.snd).Nodup :=
  (List.nodup_append.1 (h.shared.nodup_iff.2 ready.distinct)).2.1

theorem map_fst_registered (h : Tally start session) :
    session.barrier.registered.map Prod.fst = session.accepted.map Prod.snd := by
  have hstored := h.stored
  generalize session.accepted = accepted, session.barrier.registered = registered at hstored ⊢
  induction hstored with
  | nil => rfl
  | cons hfirst _ ih => rw [List.map_cons, List.map_cons, ih, hfirst.path]

theorem not_accepted (h : Tally start session) (hbefore : ¬ (session.progress call).Checked) :
    call ∉ session.accepted.map Prod.fst :=
  fun haccepted => hbefore (h.checked call haccepted)

/-- A call that has not been accepted moves on without the others. -/
theorem move (h : Tally start session) {progress : Progress}
    (hbefore : ¬ (session.progress call).Checked) (hafter : ¬ progress.Aligns)
    (hlocated : ∀ path, progress = .located path → session.barrier.phase = .collecting →
      ∀ registration, session.registrations[call]? = some registration →
        start.tree.resolve registration.module = .ok path) :
    Tally start (session.move call progress) := by
  have hfree := h.not_accepted hbefore
  have hother : ∀ other ∈ session.accepted.map Prod.fst,
      (session.move call progress).progress other = session.progress other := by
    intro other haccepted
    have hne : other ≠ call := fun heq => hfree (heq ▸ haccepted)
    rw [progress_move_of_ne hne]
  refine ⟨h.shared, h.calls, h.stored, ?_, ?_, ?_, ?_, ?_, ?_, h.requested, h.once, h.asked⟩
  · intro other haccepted
    rw [hother other haccepted]
    exact h.checked other haccepted
  · intro hphase other path hprogress registration hregistered
    rw [progress_move] at hprogress
    split at hprogress
    · rename_i heq
      rw [heq] at hregistered
      exact hlocated path hprogress hphase registration hregistered
    · exact h.located hphase other path hprogress registration hregistered
  · intro index other path haccepted hindex
    have hmem : other ∈ session.accepted.map Prod.fst :=
      List.mem_map_of_mem (List.mem_of_getElem? haccepted)
    rw [hother other hmem]
    exact h.pending index other path haccepted hindex
  · intro other haligning
    rcases haligning with haligns | hrequested
    · rw [progress_move] at haligns
      split at haligns
      · exact absurd haligns hafter
      · exact h.aligning other (.inl haligns)
    · exact h.aligning other (.inr hrequested)
  · intro other haccepted error hanswered
    rw [hother other haccepted] at hanswered
    exact h.fails other haccepted error hanswered
  · intro other modules hcollected
    rw [progress_move] at hcollected
    split at hcollected
    · rw [hcollected] at hafter
      exact absurd trivial hafter
    · exact h.collected other modules hcollected

theorem failed (h : Tally start session) (error : AlignmentError) :
    Tally start { session with barrier := { session.barrier with phase := .failed error } } :=
  ⟨h.shared, h.calls, h.stored, h.checked, by simp, h.pending, h.aligning, h.fails,
    h.collected, h.requested, h.once, h.asked⟩

/-- A path that is located while the barrier collects, and free, is still remaining. -/
theorem mem_remaining (h : Tally start session) (ready : start.Ready) {path : String}
    {registration : Registration} {admitted : Except AlignmentError Registration}
    (registered : session.registrations[call]? = some registration)
    (located : session.progress call = .located path)
    (admits : session.barrier.Admits path registration admitted) :
    path ∈ session.barrier.remaining := by
  have hknown := ready.known _ _ (h.located admits.phase call path located _ registered)
  have hfree := Barrier.registration?_eq_none.1 admits.free
  rw [h.map_fst_registered] at hfree
  rcases List.mem_append.1 (h.shared.mem_iff.2 hknown) with hremaining | haccepted
  · exact hremaining
  · exact absurd haccepted hfree

/-- While modules are remaining, no call aligns and nothing has been handed out. -/
theorem not_aligning (h : Tally start session) (waits : session.barrier.remaining ≠ [])
    (other : Nat) :
    ¬ ((session.progress other).Aligns ∨ other ∈ session.requests.map Prod.fst) := by
  intro haligning
  obtain ⟨path, haccepted⟩ := h.aligning other haligning
  obtain ⟨hindex, -⟩ := List.getElem?_eq_some_iff.1 haccepted
  have hcount := h.count
  have hpositive := List.length_pos_iff.2 waits
  omega

theorem requests_eq_nil (h : Tally start session) (waits : session.barrier.remaining ≠ []) :
    session.requests = [] := by
  cases hrequests : session.requests with
  | nil => rfl
  | cons entry rest =>
    refine absurd (.inr ?_) (h.not_aligning waits entry.1)
    rw [hrequests]
    exact List.mem_cons_self

theorem length_erase (h : Tally start session) {path : String}
    (hmem : path ∈ session.barrier.remaining) :
    (session.barrier.remaining.erase path).length + (session.accepted.length + 1)
      = start.order.length := by
  have hcount := h.count
  have herase := List.length_erase_of_mem hmem
  have hpositive := List.length_pos_of_mem hmem
  omega

/-- One more accepted call stands at the end, and the others stand where they stood. -/
theorem of_getElem?_concat {accepted : List (Nat × String)} {path : String}
    (hfree : call ∉ accepted.map Prod.fst) {index other : Nat} {known : String}
    (h : (accepted ++ [(call, path)])[index]? = some (other, known)) :
    (other ≠ call ∧ accepted[index]? = some (other, known)) ∨
      (other = call ∧ index = accepted.length) := by
  by_cases hlast : index < accepted.length
  · rw [List.getElem?_append_left hlast] at h
    refine .inl ⟨?_, h⟩
    intro heq
    rw [heq] at h
    exact hfree (List.mem_map_of_mem (List.mem_of_getElem? h))
  · have hbound := (List.getElem?_eq_some_iff.1 h).1
    rw [List.length_append, List.length_singleton] at hbound
    have hposition : index = accepted.length := by omega
    rw [hposition, List.getElem?_concat_length] at h
    cases h
    exact .inr ⟨rfl, hposition⟩

/-- One more call and its path take the place of a remaining path. -/
theorem shared_concat (h : Tally start session) {path : String}
    (hmem : path ∈ session.barrier.remaining) (call : Nat) :
    (session.barrier.remaining.erase path
      ++ (session.accepted ++ [(call, path)]).map Prod.snd).Perm start.order := by
  rw [List.map_append, ← List.append_assoc]
  refine (List.perm_append_singleton path _).trans ?_
  rw [← List.cons_append]
  exact ((List.perm_cons_erase hmem).symm.append_right _).trans h.shared

theorem mem_of_mem_concat {accepted : List (Nat × String)} {path : String} {other : Nat}
    (hne : other ≠ call) (h : other ∈ (accepted ++ [(call, path)]).map Prod.fst) :
    other ∈ accepted.map Prod.fst := by
  rw [List.map_append, List.mem_append] at h
  rcases h with hold | hnew
  · exact hold
  · exact absurd (List.mem_singleton.1 hnew) hne

/-- The next accepted call, which waits for others or collects the build. -/
theorem accept (h : Tally start session) (ready : start.Ready) (steady : Steady start session)
    {path : String} {registration admitted : Registration}
    (registered : session.registrations[call]? = some registration)
    (located : session.progress call = .located path)
    (admits : session.barrier.Admits path registration (.ok admitted))
    {phase : Phase} {progress : Progress}
    (stores : Stores (session.barrier.remaining.erase path)
      (session.barrier.store path admitted).inOrder progress) :
    Tally start ({ session with
      barrier := { session.barrier.store path admitted with phase }
      accepted := session.accepted ++ [(call, path)] }.move call progress) := by
  have waits := steady.waits admits.phase
  have hmem := h.mem_remaining ready registered located admits
  have hresolve := h.located admits.phase call path located _ registered
  have hfree : call ∉ session.accepted.map Prod.fst :=
    h.not_accepted (by rw [located]; exact id)
  have hrequests := h.requests_eq_nil waits
  have hlength := h.length_erase hmem
  have hresult : registration.admitted start.policy (start.recorded.at path) path
      = .ok admitted := by
    rw [← steady.alike.policy, ← steady.alike.recorded]
    exact admits.result
  constructor
  case shared => exact h.shared_concat hmem call
  case calls =>
    show ((session.accepted ++ [(call, path)]).map Prod.fst).Nodup
    rw [List.map_append]
    exact (List.perm_append_singleton call _).nodup_iff.2 (List.nodup_cons.2 ⟨hfree, h.calls⟩)
  case stored =>
    exact List.rel_append h.stored
      (.cons ⟨rfl, registration, registered, hresolve, hresult⟩ .nil)
  case checked =>
    intro other haccepted
    by_cases heq : other = call
    · rw [heq, progress_move_self]
      exact stores.checked
    · rw [progress_move_of_ne heq]
      exact h.checked other (mem_of_mem_concat heq haccepted)
  case located =>
    intro _ other known hlocated
    by_cases heq : other = call
    · rw [heq, progress_move_self] at hlocated
      have hchecked := stores.checked
      rw [hlocated] at hchecked
      exact hchecked.elim
    · rw [progress_move_of_ne heq] at hlocated
      exact h.located admits.phase other known hlocated
  case pending =>
    intro index other known haccepted hindex
    rcases of_getElem?_concat hfree haccepted with ⟨hne, hold⟩ | ⟨heq, hposition⟩
    · rw [progress_move_of_ne hne]
      exact h.pending index other known hold hindex
    · have hothers : session.barrier.remaining.erase path ≠ [] := by
        rw [← List.length_pos_iff]
        omega
      rw [heq, progress_move_self, stores.others hothers, show
        (session.barrier.remaining.erase path).length = start.order.length - (index + 1) by omega]
  case aligning =>
    intro other haligning
    rcases haligning with haligns | hrequested
    · by_cases heq : other = call
      · rw [heq, progress_move_self] at haligns
        have hnone := congrArg List.length (stores.eq_nil_of_aligns haligns)
        have hposition : start.order.length - 1 = session.accepted.length := by
          rw [List.length_nil] at hnone
          omega
        refine ⟨path, ?_⟩
        rw [hposition, heq]
        exact List.getElem?_concat_length
      · rw [progress_move_of_ne heq] at haligns
        exact absurd (.inl haligns) (h.not_aligning waits other)
    · exact absurd (.inr hrequested) (h.not_aligning waits other)
  case fails =>
    intro other haccepted error hanswered
    by_cases heq : other = call
    · rw [heq, progress_move_self] at hanswered
      exact absurd hanswered (stores.ne_error _)
    · rw [progress_move_of_ne heq] at hanswered
      exact h.fails other (mem_of_mem_concat heq haccepted) error hanswered
  case collected =>
    intro other modules hcollected
    refine ⟨?_, hrequests⟩
    by_cases heq : other = call
    · rw [heq, progress_move_self] at hcollected
      exact stores.eq_of_collected hcollected
    · rw [progress_move_of_ne heq] at hcollected
      refine absurd (.inl ?_) (h.not_aligning waits other)
      rw [hcollected]
      trivial
  case requested =>
    intro entry hentry
    replace hentry : entry ∈ session.requests := hentry
    rw [hrequests] at hentry
    cases hentry
  case once => exact h.once
  case asked => exact h.asked

/-- The call that aligns the build goes on. It may hand out requests, and change what the barrier
has of the alignment. -/
theorem proceed (h : Tally start session) (steady : Steady start session)
    (hbusy : (session.progress call).Busy) {phase : Phase} {asked : List (List Coordinate)}
    {tree : ModuleTree} {requests : List (Nat × Request)} {progress : Progress}
    (hphase : phase ≠ .collecting) (hchecked : progress.Checked)
    (hcollected : ∀ modules, progress ≠ .collected modules)
    (hfails : ∀ error, progress = .answered (.error (.failed error)) → error.FailsBuild)
    (hmine : ∀ other ∈ requests.map Prod.fst,
      other = call ∨ other ∈ session.requests.map Prod.fst)
    (hrequested : ∀ entry ∈ requests,
      combinedRequest start.policy session.barrier.inOrder = .ok entry.2)
    (honce : requests.length ≤ 1)
    (hasked : asked = requests.flatMap fun entry =>
      (start.aligner.align entry.2).asked.toList) :
    Tally start ({ session with
      barrier := { session.barrier with phase, asked, tree }, requests }.move call progress) := by
  have haligns : (session.progress call).Aligns := by
    cases hprogress : session.progress call with
    | collected modules => trivial
    | aligned result => trivial
    | arrived | located path | answered status =>
      rw [hprogress] at hbusy
      exact hbusy.elim
  obtain ⟨path, hlast⟩ := h.aligning call (.inl haligns)
  refine ⟨h.shared, h.calls, h.stored, ?_, (absurd · hphase), ?_, ?_, ?_, ?_, hrequested, honce,
    hasked⟩
  · intro other haccepted
    by_cases heq : other = call
    · rw [heq, progress_move_self]
      exact hchecked
    · rw [progress_move_of_ne heq]
      exact h.checked other haccepted
  · intro index other known haccepted hindex
    have hpending := h.pending index other known haccepted hindex
    have hne : other ≠ call := by
      rintro rfl
      rw [hpending] at hbusy
      exact hbusy
    rw [progress_move_of_ne hne]
    exact hpending
  · intro other haligning
    rcases haligning with haligns | hrequest
    · by_cases heq : other = call
      · rw [heq]
        exact ⟨path, hlast⟩
      · rw [progress_move_of_ne heq] at haligns
        exact h.aligning other (.inl haligns)
    · rcases hmine other hrequest with rfl | hrequest
      · exact ⟨path, hlast⟩
      · exact h.aligning other (.inr hrequest)
  · intro other haccepted error hanswered
    by_cases heq : other = call
    · rw [heq, progress_move_self] at hanswered
      exact hfails error hanswered
    · rw [progress_move_of_ne heq] at hanswered
      exact h.fails other haccepted error hanswered
  · intro other modules hprogress
    by_cases heq : other = call
    · rw [heq, progress_move_self] at hprogress
      exact absurd hprogress (hcollected modules)
    · -- No other call aligns the build.
      rw [progress_move_of_ne heq] at hprogress
      exact absurd (steady.alone other call (by rw [hprogress]; trivial) hbusy) heq

/-- Publishing hands out at most one request, and that is the first. -/
theorem published (h : Tally start session) (steady : Steady start session)
    {modules : List Registered} (collected : session.progress call = .collected modules) :
    Tally start (session.publish call modules) := by
  obtain ⟨hmodules, hrequests⟩ := h.collected call modules collected
  have hbusy : (session.progress call).Busy := by rw [collected]; trivial
  have hphase : session.barrier.phase ≠ .collecting := by
    rw [steady.aligning_of_busy hbusy]
    simp
  have hhanded : session.requests ++ session.handed call modules
      = session.handed call modules := by
    rw [hrequests, List.nil_append]
  rw [publish, Barrier.publish_eq]
  refine h.proceed steady hbusy hphase trivial ?_ ?_ ?_ ?_ ?_ ?_
  · simp
  · simp
  · rw [hhanded, handed]
    cases combinedRequest session.barrier.policy modules with
    | error stop => simp
    | ok request => simp
  · rw [hhanded, handed, steady.alike.policy, ← hmodules]
    cases hrequest : combinedRequest start.policy modules with
    | error stop => simp
    | ok request => simp
  · rw [hhanded, handed]
    cases combinedRequest session.barrier.policy modules with
    | error stop => simp
    | ok request => simp
  · rw [hhanded, h.asked, hrequests, handed, Barrier.questions, steady.alike.policy,
      steady.alike.aligner]
    cases combinedRequest start.policy modules with
    | error stop => simp
    | ok request => simp

/-- Recording how the alignment went ends the call that aligned. -/
theorem settled (h : Tally start session) (steady : Steady start session)
    {result : Except Stop AlignmentHandle} (aligned : session.progress call = .aligned result) :
    Tally start (session.settle call result) := by
  have hbusy : (session.progress call).Busy := by rw [aligned]; trivial
  have hphase : session.barrier.phase ≠ .collecting := by
    rw [steady.aligning_of_busy hbusy]
    simp
  rcases result with (error | _) | handle
  · refine h.proceed steady hbusy ?_ trivial ?_ ?_ (fun _ => .inr) h.requested h.once h.asked
    · simp
    · simp
    · intro other heq
      cases heq
      exact steady.results call error aligned
  · refine h.proceed steady hbusy hphase trivial ?_ ?_ (fun _ => .inr) h.requested h.once h.asked
    · simp
    · intro error heq
      cases heq
  · refine h.proceed steady hbusy ?_ trivial ?_ ?_ (fun _ => .inr) h.requested h.once h.asked
    · simp
    · simp
    · intro error heq
      cases heq

/-- Every step keeps the tally. -/
theorem step (h : Tally start session) (ready : start.Ready) (steady : Steady start session)
    {next : Session} (taken : Step session call next) : Tally start next := by
  cases taken with
  | idle => exact h
  | unknown _ arrived _ =>
    exact h.move (by rw [arrived]; exact id) id (by simp)
  | @found registration path registered arrived lookup =>
    refine h.move (by rw [arrived]; exact id) id ?_
    rintro _ ⟨⟩ hphase other hregistered
    rw [registered] at hregistered
    cases hregistered
    rw [← steady.tree_of_collecting hphase]
    exact lookup
  | refused located _ => exact h.move (by rw [located]; exact id) id (by simp)
  | rejected _ located _ =>
    refine (h.failed _).move ?_ id (by simp)
    show ¬ (session.progress call).Checked
    rw [located]
    exact id
  | waiting registered located admits others =>
    exact h.accept ready steady registered located admits
      ⟨fun _ => rfl, fun hnone => absurd hnone others⟩
  | last registered located admits none =>
    exact h.accept ready steady registered located admits
      ⟨fun others => absurd none others, fun _ => rfl⟩
  | published collected => exact h.published steady collected
  | settled aligned => exact h.settled steady aligned

theorem run (h : Tally start session) (ready : start.Ready) (steady : Steady start session)
    (schedule : List Nat) : Tally start (session.run schedule) := by
  have hboth : Steady start (session.run schedule) ∧ Tally start (session.run schedule) := by
    refine run_induction (motive := fun moved => Steady start moved ∧ Tally start moved) ?_
      ⟨steady, h⟩ schedule
    intro before call next hinvariant taken
    obtain ⟨hsteady, htally⟩ := hinvariant
    exact ⟨hsteady.step taken, htally.step ready hsteady taken⟩
  exact hboth.2

/-- The barrier keeps the registrations of accepted calls, and no others. -/
theorem exists_of_mem_registered (h : Tally start session) {entry : Registered}
    (hentry : entry ∈ session.barrier.registered) :
    ∃ call ∈ session.accepted, Barrier.Stored start session.registrations call entry := by
  have hstored := h.stored
  generalize session.accepted = accepted, session.barrier.registered = registered
    at hstored hentry ⊢
  induction hstored with
  | nil => cases hentry
  | cons hfirst _ ih =>
    rcases List.mem_cons.1 hentry with rfl | hrest
    · exact ⟨_, List.mem_cons_self, hfirst⟩
    · obtain ⟨call, hcall, hstored⟩ := ih hrest
      exact ⟨call, List.mem_cons_of_mem _ hcall, hstored⟩

/-- Once as many calls are accepted as there are modules, every module has registered. -/
theorem mem_accepted_of_last (h : Tally start session) {last : Nat × String}
    (hlast : session.accepted[start.order.length - 1]? = some last) {path : String}
    (hpath : path ∈ start.order) : path ∈ session.accepted.map Prod.snd := by
  have hindex := (List.getElem?_eq_some_iff.1 hlast).1
  have hcount := h.count
  have hpositive := List.length_pos_of_mem hpath
  have hremaining : session.barrier.remaining = [] := by
    rw [← List.length_eq_zero_iff]
    omega
  have hshared := h.shared
  rw [hremaining, List.nil_append] at hshared
  exact hshared.mem_iff.2 hpath

theorem map_fst_inOrder (h : Tally start session) (ready : start.Ready)
    (steady : Steady start session) {last : Nat × String}
    (hlast : session.accepted[start.order.length - 1]? = some last) :
    session.barrier.inOrder.map Prod.fst = start.order := by
  rw [← steady.alike.order]
  refine Barrier.map_fst_inOrder (steady.alike.order ▸ ready.distinct) ?_
  intro path hpath
  rw [steady.alike.order] at hpath
  rw [h.map_fst_registered]
  exact h.mem_accepted_of_last hlast hpath

end Tally

/-! ### Aligning once -/

/-- The build is aligned at most once, by the call that registers the last of its modules, and from
one accepted registration for every module. -/
structure AlignsOnce (start : Barrier) (paths : List String) (session : Session) : Prop where
  /-- No call is accepted twice, and for no module two calls. -/
  distinctCalls : (session.accepted.map Prod.fst).Nodup
  distinctPaths : (session.accepted.map Prod.snd).Nodup
  /-- The barrier keeps what was left of the accepted registrations, in the same order. -/
  stored : List.Forall₂ (Barrier.Stored start session.registrations) session.accepted
    session.barrier.registered
  remaining : (session.barrier.remaining ++ session.accepted.map Prod.snd).Perm paths
  /-- Every accepted call but the last is told how many modules are missing. -/
  pending : ∀ index call path, session.accepted[index]? = some (call, path) →
    index + 1 < paths.length →
    session.progress call = .answered (.ok (.pending (paths.length - (index + 1))))
  /-- Only the call that registers the last module completes the build, -/
  complete : ∀ call handle, session.progress call = .answered (.ok (.complete handle)) →
    ∃ path, session.accepted[paths.length - 1]? = some (call, path)
  completeOnce : ∀ first second handle other,
    session.progress first = .answered (.ok (.complete handle)) →
    session.progress second = .answered (.ok (.complete other)) → first = second
  /-- and only that call hands a request to the aligner, of one part for every module. -/
  handed : ∀ call request, (call, request) ∈ session.requests →
    (∃ path, session.accepted[paths.length - 1]? = some (call, path)) ∧
    ∃ modules, combinedRequest start.policy modules = .ok request ∧
      request.modules = modules.map (moduleRequest (internalRefs modules)) ∧
      request.modules.map ModuleRequest.path = paths ∧
      ∀ entry ∈ modules, ∃ call ∈ session.accepted,
        Barrier.Stored start session.registrations call entry
  handedOnce : session.requests.length ≤ 1
  /-- The authority is asked for such a request only, so never before every module is there. -/
  asked : session.barrier.asked
    = session.requests.flatMap fun entry => (start.aligner.align entry.2).asked.toList
  askedOnce : session.barrier.asked.length ≤ 1
  askedLast : session.barrier.asked ≠ [] →
    ∀ path ∈ paths, path ∈ session.accepted.map Prod.snd
  /-- An accepted call that ends with an error is not one that was turned away. -/
  fails : ∀ call ∈ session.accepted.map Prod.fst, ∀ error,
    session.progress call = .answered (.error (.failed error)) → error.FailsBuild

/-- However the steps of the calls follow each other, a built tree is aligned at most once. -/
theorem alignsOnce_run {tree : ModuleTree} {aligner : Aligner} {policy : BarrierPolicy}
    {barrier : Barrier} (built : tree.Built) (opened : Barrier.Opened tree aligner policy barrier)
    (registrations : List Registration) (schedule : List Nat) :
    AlignsOnce barrier tree.paths ((Session.start barrier registrations).run schedule) := by
  have ready := opened.ready built
  have steady := opened.steady registrations schedule
  have h : Tally barrier ((Session.start barrier registrations).run schedule) :=
    (tally_start ready registrations).run ready (opened.steady registrations []) schedule
  have horder : tree.paths = barrier.order := by rw [opened.eq]
  generalize (Session.start barrier registrations).run schedule = session at steady h ⊢
  rw [horder]
  have hcomplete : ∀ call handle, session.progress call = .answered (.ok (.complete handle)) →
      ∃ path, session.accepted[barrier.order.length - 1]? = some (call, path) := by
    intro call handle hanswered
    exact h.aligning call (.inl (by rw [hanswered]; trivial))
  have hasked : session.barrier.asked.length ≤ 1 := by
    rw [h.asked]
    have honce := h.once
    cases hrequests : session.requests with
    | nil => exact Nat.zero_le 1
    | cons entry rest =>
      rw [hrequests, List.length_cons] at honce
      have hrest : rest = [] := List.length_eq_zero_iff.1 (by omega)
      rw [hrest, List.flatMap_cons, List.flatMap_nil, List.append_nil]
      cases (barrier.aligner.align entry.2).asked with
      | none => exact Nat.zero_le 1
      | some coordinates => exact Nat.le_refl 1
  refine ⟨h.calls, h.paths ready, h.stored, h.shared, h.pending, hcomplete, ?_, ?_, h.once,
    h.asked, hasked, ?_, h.fails⟩
  · intro first second handle other hfirst hsecond
    obtain ⟨path, hpath⟩ := hcomplete first handle hfirst
    obtain ⟨known, hknown⟩ := hcomplete second other hsecond
    rw [hpath] at hknown
    cases hknown
    rfl
  · intro call request hrequest
    obtain ⟨path, hlast⟩ := h.aligning call (.inr (List.mem_map_of_mem hrequest))
    have hcombined := h.requested _ hrequest
    have hmodules := modules_of_combinedRequest hcombined
    refine ⟨⟨path, hlast⟩, _, hcombined, hmodules, ?_, ?_⟩
    · rw [hmodules, List.map_map]
      exact h.map_fst_inOrder ready steady hlast
    · intro entry hentry
      exact h.exists_of_mem_registered (Barrier.mem_registered_of_mem_inOrder hentry)
  · intro hnonempty path hpath
    have hrequests : session.requests ≠ [] := by
      intro hnil
      rw [h.asked, hnil] at hnonempty
      exact hnonempty rfl
    obtain ⟨entry, hentry⟩ := List.exists_mem_of_ne_nil _ hrequests
    obtain ⟨last, hlast⟩ := h.aligning entry.1 (.inr (List.mem_map_of_mem hentry))
    exact h.mem_accepted_of_last hlast hpath

open SmallBuild in
/-- Four calls of which one names no module, and one comes for a module that has registered. -/
theorem alignsOnce_of_stray_calls :
    let session := (Session.start SmallBuild.barrier
      [registrationOf ":" "app" [], registrationOf "util" "util" [],
        registrationOf ":core" "core" [.exact ⟨"org.lib", "base", "1.0"⟩],
        registrationOf ":" "app" []]).run [3, 2, 0, 3, 0, 1, 2, 2, 2]
    tree.Built ∧ Barrier.Opened tree aligner {} SmallBuild.barrier ∧
      AlignsOnce SmallBuild.barrier tree.paths session ∧
      session.accepted = [(3, ":"), (2, ":core")] ∧
      session.barrier.asked = [[⟨"org.example", "app", "1.0"⟩, ⟨"org.example", "core", "1.0"⟩,
        ⟨"org.lib", "base", "1.0"⟩]] := by
  intro session
  exact ⟨built, opened, alignsOnce_run built opened _ _, by decide +kernel, by decide +kernel⟩

end Session

end BuildAlignment
