import BuildAlignment.Proofs.Barrier.KeptErrors
import BuildAlignment.Proofs.Barrier.Session

/-!
# The phases of a barrier

While calls run side by side, the phase of the barrier says what they may still change.

* `Session.Steady` is the invariant: at most one call aligns the build, it does so in the aligning
  phase, and no other tree than the given one is there before it has succeeded.
* `Session.Steady.run`: it holds after every schedule.
* `Session.Steady.run_barrier_of_final`: a barrier that has failed or completed never changes
  again.
-/

namespace BuildAlignment

/-- The call has collected the build and not recorded its alignment yet. -/
def Progress.Busy : Progress → Prop
  | .collected _ => True
  | .aligned _ => True
  | .arrived => False
  | .located _ => False
  | .answered _ => False

theorem Progress.not_busy_answered (status : Except Stop RegistrationStatus) :
    ¬ (Progress.answered status).Busy := id

/-- The build has failed or is complete. -/
def Phase.Final : Phase → Prop
  | .collecting => False
  | .aligning => False
  | .completed _ => True
  | .failed _ => True

namespace Session

/-- What holds at every moment of a session that began with a barrier. -/
structure Steady (start : Barrier) (session : Session) : Prop where
  alike : session.barrier.Alike start
  quiet : session.barrier.phase ≠ .aligning → ∀ call, ¬ (session.progress call).Busy
  alone : ∀ first second, (session.progress first).Busy → (session.progress second).Busy →
    first = second
  waits : session.barrier.phase = .collecting → session.barrier.remaining ≠ []
  untouched : session.barrier.tree = start.tree ∨
    (∃ handle, session.barrier.phase = .completed handle) ∨
    ∃ call handle, session.progress call = .aligned (.ok handle)
  fails : ∀ error, session.barrier.phase = .failed error → error.FailsBuild
  results : ∀ call error, session.progress call = .aligned (.error (.failed error)) →
    error.FailsBuild

variable {start : Barrier} {session : Session}

/-- A busy call after another call has moved on is that call, or was busy before. -/
theorem busy_of_move {call other : Nat} {progress : Progress} (hidle : ¬ progress.Busy)
    (h : ((session.move call progress).progress other).Busy) :
    other ≠ call ∧ (session.progress other).Busy := by
  rw [progress_move] at h
  split at h
  · exact absurd h hidle
  · rename_i hne
    exact ⟨hne, h⟩

/-! ### The invariant -/

theorem steady_start (hphase : start.phase = .collecting) (hremaining : start.remaining ≠ [])
    (registrations : List Registration) : Steady start (.start start registrations) where
  alike := .refl start
  quiet := fun _ _ hbusy => hbusy
  alone := fun _ _ hbusy => hbusy.elim
  waits := fun _ => hremaining
  untouched := .inl rfl
  fails := fun error hfailed => by
    have : start.phase = .failed error := hfailed
    rw [hphase] at this
    cases this
  results := fun _ _ h => by cases h

namespace Steady

/-- A call that is not busy moves on without the barrier. -/
theorem move (h : Steady start session) {call : Nat} {progress : Progress}
    (hbefore : ¬ (session.progress call).Busy) (hidle : ¬ progress.Busy) :
    Steady start (session.move call progress) where
  alike := h.alike
  quiet := fun hphase other hbusy => h.quiet hphase other (busy_of_move hidle hbusy).2
  alone := fun first second hfirst hsecond =>
    h.alone first second (busy_of_move hidle hfirst).2 (busy_of_move hidle hsecond).2
  waits := h.waits
  untouched := by
    refine h.untouched.imp id (Or.imp id ?_)
    intro hfound
    obtain ⟨other, handle, haligned⟩ := hfound
    refine ⟨other, handle, ?_⟩
    have hne : other ≠ call := by
      rintro rfl
      exact hbefore (by rw [haligned]; trivial)
    rw [progress_move_of_ne hne]
    exact haligned
  fails := h.fails
  results := by
    intro other error haligned
    rw [progress_move] at haligned
    split at haligned
    · rw [haligned] at hidle
      exact absurd trivial hidle
    · exact h.results other error haligned

theorem tree_of_collecting (h : Steady start session)
    (hphase : session.barrier.phase = .collecting) : session.barrier.tree = start.tree := by
  rcases h.untouched with htree | ⟨handle, hcompleted⟩ | ⟨call, handle, haligned⟩
  · exact htree
  · rw [hphase] at hcompleted
    cases hcompleted
  · have hbusy : (session.progress call).Busy := by rw [haligned]; trivial
    exact absurd hbusy (h.quiet (by rw [hphase]; simp) call)

theorem tree_of_failed (h : Steady start session) {error : AlignmentError}
    (hphase : session.barrier.phase = .failed error) : session.barrier.tree = start.tree := by
  rcases h.untouched with htree | ⟨handle, hcompleted⟩ | ⟨call, handle, haligned⟩
  · exact htree
  · rw [hphase] at hcompleted
    cases hcompleted
  · have hbusy : (session.progress call).Busy := by rw [haligned]; trivial
    exact absurd hbusy (h.quiet (by rw [hphase]; simp) call)

theorem aligning_of_busy (h : Steady start session) {call : Nat}
    (hbusy : (session.progress call).Busy) : session.barrier.phase = .aligning := by
  cases hphase : session.barrier.phase with
  | aligning => rfl
  | collecting => exact absurd hbusy (h.quiet (by rw [hphase]; simp) call)
  | completed handle => exact absurd hbusy (h.quiet (by rw [hphase]; simp) call)
  | failed error => exact absurd hbusy (h.quiet (by rw [hphase]; simp) call)

/-- The tree is the given one as long as the only busy call has not succeeded. -/
theorem tree_of_busy (h : Steady start session) {call : Nat}
    (hbusy : (session.progress call).Busy)
    (hresult : ∀ handle, session.progress call ≠ .aligned (.ok handle)) :
    session.barrier.tree = start.tree := by
  rcases h.untouched with htree | ⟨handle, hcompleted⟩ | ⟨other, handle, haligned⟩
  · exact htree
  · rw [h.aligning_of_busy hbusy] at hcompleted
    cases hcompleted
  · have hother : (session.progress other).Busy := by rw [haligned]; trivial
    rw [h.alone other call hother hbusy] at haligned
    exact absurd haligned (hresult handle)

/-! ### Steps that change the barrier -/

/-- A registration that is not admitted fails the build. -/
theorem rejected (h : Steady start session) {call : Nat} {path : String}
    {registration : Registration} {error : AlignmentError}
    (admits : session.barrier.Admits path registration (.error error)) :
    Steady start
      ({ session with barrier := { session.barrier with phase := .failed error.restate } }.move
        call (.answered (.error (.failed error)))) := by
  have hfails := failsBuild_of_admitted admits.result
  have hquiet := h.quiet (by rw [admits.phase]; simp)
  have hmoved : ∀ other, ¬ (({ session with
      barrier := { session.barrier with phase := .failed error.restate } }.move call
        (.answered (.error (.failed error)))).progress other).Busy :=
    fun other hbusy => hquiet other (busy_of_move (Progress.not_busy_answered _) hbusy).2
  refine ⟨⟨h.alike.1, h.alike.2, h.alike.3, h.alike.4⟩, fun _ => hmoved, ?_, ?_,
    .inl (h.tree_of_collecting admits.phase), ?_, ?_⟩
  · exact fun first _ hfirst => absurd hfirst (hmoved first)
  · intro hphase
    cases hphase
  · intro kept hphase
    cases hphase
    rw [hfails.restate_eq]
    exact hfails
  · intro other kept haligned
    exact absurd (by rw [haligned]; trivial) (hmoved other)

theorem waiting (h : Steady start session) {call : Nat} {path : String}
    {registration admitted : Registration}
    (admits : session.barrier.Admits path registration (.ok admitted))
    (others : session.barrier.remaining.erase path ≠ []) (accepted : List (Nat × String))
    (status : Except Stop RegistrationStatus) :
    Steady start
      ({ session with barrier := session.barrier.store path admitted, accepted }.move call
        (.answered status)) := by
  have hquiet := h.quiet (by rw [admits.phase]; simp)
  have hmoved : ∀ other, ¬ (({ session with
      barrier := session.barrier.store path admitted, accepted }.move call
        (.answered status)).progress other).Busy :=
    fun other hbusy => hquiet other (busy_of_move (Progress.not_busy_answered _) hbusy).2
  refine ⟨⟨h.alike.1, h.alike.2, h.alike.3, h.alike.4⟩, fun _ => hmoved, ?_, fun _ => others,
    .inl (h.tree_of_collecting admits.phase), h.fails, ?_⟩
  · exact fun first _ hfirst => absurd hfirst (hmoved first)
  · intro other kept haligned
    exact absurd (by rw [haligned]; trivial) (hmoved other)

theorem last (h : Steady start session) {call : Nat} {path : String}
    {registration admitted : Registration}
    (admits : session.barrier.Admits path registration (.ok admitted))
    (accepted : List (Nat × String)) (modules : List Registered) :
    Steady start
      ({ session with
          barrier := { session.barrier.store path admitted with phase := .aligning }
          accepted }.move call (.collected modules)) := by
  have hquiet := h.quiet (by rw [admits.phase]; simp)
  have honly : ∀ other, (({ session with
      barrier := { session.barrier.store path admitted with phase := .aligning }
      accepted }.move call (.collected modules)).progress other).Busy → other = call := by
    intro other hbusy
    rw [progress_move] at hbusy
    split at hbusy
    · assumption
    · exact absurd hbusy (hquiet other)
  refine ⟨⟨h.alike.1, h.alike.2, h.alike.3, h.alike.4⟩, ?_, ?_, ?_,
    .inl (h.tree_of_collecting admits.phase), ?_, ?_⟩
  · exact fun hphase => absurd rfl hphase
  · exact fun first second hfirst hsecond => (honly first hfirst).trans (honly second hsecond).symm
  · intro hphase
    cases hphase
  · intro kept hphase
    cases hphase
  · intro other kept haligned
    rw [progress_move] at haligned
    split at haligned
    · cases haligned
    · exact absurd (by rw [haligned]; trivial) (hquiet other)

/-- Publishing replaces the tree only if the alignment has succeeded. -/
theorem published (h : Steady start session) {call : Nat} {modules : List Registered}
    (collected : session.progress call = .collected modules) :
    Steady start (session.publish call modules) := by
  have hbusy : (session.progress call).Busy := by rw [collected]; trivial
  have hphase := h.aligning_of_busy hbusy
  have honly : ∀ other, ((session.publish call modules).progress other).Busy → other = call := by
    intro other hother
    rw [publish, progress_move] at hother
    split at hother
    · assumption
    · exact h.alone other call hother hbusy
  have hbarrier := congrArg Prod.fst (session.barrier.publish_eq modules)
  have hsame : (session.publish call modules).barrier.phase = .aligning := by
    show (session.barrier.publish modules).1.phase = .aligning
    rw [hbarrier]
    exact hphase
  refine ⟨?_, ?_, ?_, ?_, ?_, ?_, ?_⟩
  · show (session.barrier.publish modules).1.Alike start
    rw [hbarrier]
    exact ⟨h.alike.1, h.alike.2, h.alike.3, h.alike.4⟩
  · exact fun hother => absurd hsame hother
  · exact fun first second hfirst hsecond => (honly first hfirst).trans (honly second hsecond).symm
  · intro hcollecting
    rw [hsame] at hcollecting
    cases hcollecting
  · cases hresult : (session.barrier.publish modules).2 with
    | ok handle =>
      refine .inr (.inr ⟨call, handle, ?_⟩)
      rw [publish, progress_move_self, hresult]
    | error stop =>
      refine .inl ?_
      show (session.barrier.publish modules).1.tree = start.tree
      rw [hbarrier]
      exact (Barrier.treeAfter_of_error hresult).trans
        (h.tree_of_busy hbusy (by rw [collected]; simp))
  · intro error hfailed
    rw [hsame] at hfailed
    cases hfailed
  · intro other error haligned
    have heq := honly other (by rw [haligned]; trivial)
    subst heq
    rw [publish, progress_move_self] at haligned
    exact Barrier.failsBuild_of_publish (Progress.aligned.inj haligned)

/-- Recording a result ends the aligning phase, unless the alignment was given up. -/
theorem settled (h : Steady start session) {call : Nat} {result : Except Stop AlignmentHandle}
    (aligned : session.progress call = .aligned result) :
    Steady start (session.settle call result) := by
  have hbusy : (session.progress call).Busy := by rw [aligned]; trivial
  have hmoved : ∀ other, ¬ ((session.settle call result).progress other).Busy := by
    intro other hother
    rw [settle] at hother
    obtain ⟨hne, hbefore⟩ := busy_of_move (Progress.not_busy_answered _) hother
    exact hne (h.alone other call hbefore hbusy)
  have hresults : ∀ other error,
      (session.settle call result).progress other = .aligned (.error (.failed error)) →
        error.FailsBuild := by
    intro other error haligned
    exact absurd (by rw [haligned]; trivial) (hmoved other)
  have halone : ∀ first second, ((session.settle call result).progress first).Busy →
      ((session.settle call result).progress second).Busy → first = second :=
    fun first _ hfirst => absurd hfirst (hmoved first)
  cases result with
  | ok handle =>
    refine ⟨⟨h.alike.1, h.alike.2, h.alike.3, h.alike.4⟩, fun _ => hmoved, halone, ?_,
      .inr (.inl ⟨handle, rfl⟩), ?_, hresults⟩
    · intro hphase
      cases hphase
    · intro error hphase
      cases hphase
  | error stop =>
    have htree := h.tree_of_busy hbusy (by rw [aligned]; simp)
    cases stop with
    | failed error =>
      have hfails := h.results call error aligned
      refine ⟨⟨h.alike.1, h.alike.2, h.alike.3, h.alike.4⟩, fun _ => hmoved, halone, ?_,
        .inl htree, ?_, hresults⟩
      · intro hphase
        cases hphase
      · intro kept hphase
        cases hphase
        rw [hfails.restate_eq]
        exact hfails
    | aborted =>
      have hphase := h.aligning_of_busy hbusy
      exact ⟨h.alike, fun _ => hmoved, halone, h.waits, .inl htree, h.fails, hresults⟩

theorem step (h : Steady start session) {call : Nat} {next : Session}
    (taken : Step session call next) : Steady start next := by
  cases taken with
  | idle => exact h
  | unknown _ arrived _ => exact h.move (by rw [arrived]; exact id) id
  | found _ arrived _ => exact h.move (by rw [arrived]; exact id) id
  | refused located _ => exact h.move (by rw [located]; exact id) id
  | rejected _ _ admits => exact h.rejected admits
  | waiting _ _ admits others => exact h.waiting admits others _ _
  | last _ _ admits _ => exact h.last admits _ _
  | published collected => exact h.published collected
  | settled aligned => exact h.settled aligned

theorem run (h : Steady start session) (schedule : List Nat) :
    Steady start (session.run schedule) :=
  run_induction (motive := Steady start) (fun _ _ _ hbefore taken => hbefore.step taken) h schedule

/-! ### Final phases -/

/-- Nothing that a call does changes a barrier that has failed or completed. -/
theorem barrier_of_final (h : Steady start session) (hfinal : session.barrier.phase.Final)
    {call : Nat} {next : Session} (taken : Step session call next) :
    next.barrier = session.barrier := by
  have hcollecting : session.barrier.phase ≠ .collecting := by
    intro hphase
    rw [hphase] at hfinal
    exact hfinal
  have hidle : ¬ (session.progress call).Busy := by
    intro hbusy
    rw [h.aligning_of_busy hbusy] at hfinal
    exact hfinal
  cases taken with
  | idle => rfl
  | unknown => rfl
  | found => rfl
  | refused => rfl
  | rejected _ _ admits => exact absurd admits.phase hcollecting
  | waiting _ _ admits _ => exact absurd admits.phase hcollecting
  | last _ _ admits _ => exact absurd admits.phase hcollecting
  | published collected => exact absurd (by rw [collected]; trivial) hidle
  | settled aligned => exact absurd (by rw [aligned]; trivial) hidle

/-- A barrier that has failed or completed never changes again. -/
theorem run_barrier_of_final (h : Steady start session) (hfinal : session.barrier.phase.Final)
    (schedule : List Nat) : (session.run schedule).barrier = session.barrier := by
  have hkept : Steady start (session.run schedule) ∧
      (session.run schedule).barrier = session.barrier := by
    refine run_induction
      (motive := fun moved => Steady start moved ∧ moved.barrier = session.barrier) ?_
      ⟨h, rfl⟩ schedule
    intro before call next hinvariant taken
    obtain ⟨hbefore, hbarrier⟩ := hinvariant
    have hsame := hbefore.barrier_of_final (by rw [hbarrier]; exact hfinal) taken
    exact ⟨hbefore.step taken, hsame.trans hbarrier⟩
  exact hkept.2

end Steady

end Session

/-! ### From the first registration on -/

namespace Barrier.Opened

variable {tree : ModuleTree} {aligner : Aligner} {policy : BarrierPolicy} {barrier : Barrier}

theorem tree_eq (h : Opened tree aligner policy barrier) : barrier.tree = tree := by
  rw [h.eq]

/-- Whoever registers at a new barrier, and in whatever order, keeps the invariant. -/
theorem steady (h : Opened tree aligner policy barrier) (registrations : List Registration)
    (schedule : List Nat) :
    Session.Steady barrier ((Session.start barrier registrations).run schedule) := by
  have hphase : barrier.phase = .collecting := by rw [h.eq]
  have hremaining : barrier.remaining ≠ [] := by
    obtain ⟨rest, hpaths⟩ := tree.paths_eq_cons
    rw [h.eq, hpaths, List.eraseDups_cons]
    exact List.cons_ne_nil _ _
  exact (Session.steady_start hphase hremaining registrations).run schedule

end Barrier.Opened

end BuildAlignment
