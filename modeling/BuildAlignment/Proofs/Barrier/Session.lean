import BuildAlignment.Barrier
import Mathlib.Logic.Function.Basic

/-!
# Calls that run side by side

Several calls register modules with one barrier. Each of them goes through its steps in order, and
the steps of different calls come in any order.

* `Progress` says how far a call has come, `Session` is a barrier with all its calls.
* `Session.step` lets one call take its next step, `Session.run` follows a schedule.
* `Session.Step` lists what a step can do, with everything that is known when it does it. By
  `Session.step_spec` every step is one of these.
* `Session.run_induction`: what every step keeps is kept by every schedule.
* `Session.run_row`: a call whose steps come in a row does what `Barrier.register` does. By
  `Session.run_start_rows` a session covers what `Barrier.registerAll` does.
* `Barrier.Opened` holds of the barriers that nobody has registered at yet.
-/

namespace BuildAlignment

/-! ### Before the first registration -/

/-- A barrier for a tree that nobody has registered at, with or without an earlier tree. -/
inductive Barrier.Opened (tree : ModuleTree) (aligner : Aligner) (policy : BarrierPolicy) :
    Barrier → Prop
  | new {barrier : Barrier} (made : Barrier.new tree aligner policy = .ok barrier) :
      Opened tree aligner policy barrier
  | seeded {barrier : Barrier} (previous : ModuleTree)
      (opened : Opened tree aligner policy barrier) :
      Opened tree aligner policy (barrier.withPrevious previous)

/-- All that an opened barrier has of its own are the resolved versions and what was recorded. -/
theorem Barrier.Opened.eq {tree : ModuleTree} {aligner : Aligner} {policy : BarrierPolicy}
    {barrier : Barrier} (h : Opened tree aligner policy barrier) :
    barrier = { aligner, policy := barrier.policy, recorded := barrier.recorded
                order := tree.paths, remaining := tree.paths.eraseDups, tree } := by
  induction h with
  | new made =>
    rw [Barrier.new] at made
    cases hversions : resolveVersions tree policy.moduleVersions with
    | error error =>
      rw [hversions] at made
      cases made
    | ok versions =>
      rw [hversions] at made
      cases made
      rfl
  | seeded previous opened ih => rw [ih]; rfl

/-- A new barrier has the policy it was given, but for the module versions. -/
theorem Barrier.Opened.policy_eq {tree : ModuleTree} {aligner : Aligner} {policy : BarrierPolicy}
    {barrier : Barrier} (h : Opened tree aligner policy barrier) :
    barrier.policy = { policy with moduleVersions := barrier.policy.moduleVersions } := by
  induction h with
  | new made =>
    rw [Barrier.new] at made
    cases hversions : resolveVersions tree policy.moduleVersions with
    | error error =>
      rw [hversions] at made
      cases made
    | ok versions =>
      rw [hversions] at made
      cases made
      rfl
  | seeded previous opened ih => exact ih

/-! ### Calls -/

inductive Progress where
  | arrived
  /-- The module is known, under this path. -/
  | located (path : String)
  /-- The registration was the last one, and these are the registrations of the build. -/
  | collected (modules : List Registered)
  /-- The build has been aligned with this result, which is not recorded yet. -/
  | aligned (result : Except Stop AlignmentHandle)
  | answered (status : Except Stop RegistrationStatus)

structure Session where
  barrier : Barrier
  registrations : List Registration
  progress : Nat → Progress := fun _ => .arrived
  /-- The calls whose registrations were accepted and the paths of these, in order of arrival. -/
  accepted : List (Nat × String) := []
  /-- The requests that were handed to the aligner, with the calls that did so. -/
  requests : List (Nat × Request) := []

/-! ### What a check can say -/

/-- A registration is refused at a path, and the barrier stays as it is. -/
inductive Barrier.Refuses (barrier : Barrier) (path : String) : AlignmentError → Prop
  | failed {kept : AlignmentError} (phase : barrier.phase = .failed kept) :
      Refuses barrier path kept.restate
  | aligning (phase : barrier.phase = .aligning) : Refuses barrier path .alreadyPerformed
  | completed {handle : AlignmentHandle} (phase : barrier.phase = .completed handle) :
      Refuses barrier path .alreadyPerformed
  | duplicate (phase : barrier.phase = .collecting)
      (there : (barrier.registration? path).isSome) :
      Refuses barrier path (.duplicateRegistration path)

/-- A registration is the first one for a path while the barrier collects, and this is what is left
of it when it is admitted. -/
structure Barrier.Admits (barrier : Barrier) (path : String) (registration : Registration)
    (admitted : Except AlignmentError Registration) : Prop where
  phase : barrier.phase = .collecting
  free : barrier.registration? path = none
  result : registration.admitted barrier.policy (barrier.recorded.at path) path = admitted

theorem Barrier.Admits.enterAt_error {barrier : Barrier} {path : String}
    {registration : Registration} {error : AlignmentError}
    (h : barrier.Admits path registration (.error error)) :
    barrier.enterAt path registration
      = ({ barrier with phase := .failed error.restate }, .refused error) := by
  simp [enterAt, h.phase, h.free, h.result]

theorem Barrier.Admits.enterAt_ok {barrier : Barrier} {path : String}
    {registration admitted : Registration} (h : barrier.Admits path registration (.ok admitted)) :
    barrier.enterAt path registration = barrier.accept path admitted := by
  simp [enterAt, h.phase, h.free, h.result]

/-- A check refuses a registration, fails the build, or stores what was admitted. -/
theorem Barrier.enterAt_cases (barrier : Barrier) (path : String) (registration : Registration) :
    (∃ error, barrier.Refuses path error ∧
      barrier.enterAt path registration = (barrier, .refused error)) ∨
    (∃ error, barrier.Admits path registration (.error error) ∧
      barrier.enterAt path registration
        = ({ barrier with phase := .failed error.restate }, .refused error)) ∨
    (∃ admitted, barrier.Admits path registration (.ok admitted) ∧
      barrier.enterAt path registration = barrier.accept path admitted) := by
  cases hphase : barrier.phase with
  | failed kept => exact Or.inl ⟨_, .failed hphase, by simp only [enterAt, hphase]⟩
  | aligning => exact Or.inl ⟨_, .aligning hphase, by simp only [enterAt, hphase]⟩
  | completed handle => exact Or.inl ⟨_, .completed hphase, by simp only [enterAt, hphase]⟩
  | collecting =>
    by_cases hthere : (barrier.registration? path).isSome
    · exact Or.inl ⟨_, .duplicate hphase hthere, by simp only [enterAt, hphase, if_pos hthere]⟩
    · have hfree : barrier.registration? path = none := by simpa using hthere
      cases hadmitted : registration.admitted barrier.policy (barrier.recorded.at path) path with
      | error error =>
        have admits : barrier.Admits path registration (.error error) := ⟨hphase, hfree, hadmitted⟩
        exact Or.inr (Or.inl ⟨error, admits, admits.enterAt_error⟩)
      | ok admitted =>
        have admits : barrier.Admits path registration (.ok admitted) := ⟨hphase, hfree, hadmitted⟩
        exact Or.inr (Or.inr ⟨admitted, admits, admits.enterAt_ok⟩)

theorem Barrier.accept_of_others {barrier : Barrier} {path : String}
    (others : barrier.remaining.erase path ≠ []) (registration : Registration) :
    barrier.accept path registration = (barrier.store path registration,
      .waiting (barrier.remaining.erase path).length) := by
  have hstored : ¬ (barrier.store path registration).remaining.isEmpty := by
    rw [store]
    simpa using others
  rw [accept]
  exact if_neg hstored

theorem Barrier.accept_of_none {barrier : Barrier} {path : String}
    (none : barrier.remaining.erase path = []) (registration : Registration) :
    barrier.accept path registration =
      ({ barrier.store path registration with phase := .aligning },
        .last (barrier.store path registration).inOrder) := by
  have hstored : (barrier.store path registration).remaining.isEmpty := by
    rw [store, none]
    rfl
  rw [accept]
  exact if_pos hstored

namespace Session

/-- All calls have arrived and none has begun. -/
def start (barrier : Barrier) (registrations : List Registration) : Session :=
  { barrier, registrations }

/-- A call comes further. -/
def move (session : Session) (call : Nat) (progress : Progress) : Session :=
  { session with progress := Function.update session.progress call progress }

theorem progress_move (session : Session) (call other : Nat) (progress : Progress) :
    (session.move call progress).progress other
      = if other = call then progress else session.progress other :=
  Function.update_apply ..

theorem progress_move_self (session : Session) (call : Nat) (progress : Progress) :
    (session.move call progress).progress call = progress := by
  rw [progress_move, if_pos rfl]

theorem progress_move_of_ne {session : Session} {call other : Nat} {progress : Progress}
    (h : other ≠ call) : (session.move call progress).progress other = session.progress other := by
  rw [progress_move, if_neg h]

/-! ### Steps -/

def lookUp (session : Session) (call : Nat) (registration : Registration) : Session :=
  match session.barrier.tree.resolve registration.module with
  | .error error => session.move call (.answered (.error (.failed error)))
  | .ok path => session.move call (.located path)

/-- Checks a registration and stores it. -/
def check (session : Session) (call : Nat) (path : String) (registration : Registration) :
    Session :=
  match session.barrier.enterAt path registration with
  | (entered, .refused error) =>
    { session with barrier := entered }.move call (.answered (.error (.failed error)))
  | (entered, .waiting remaining) =>
    { session with barrier := entered, accepted := session.accepted ++ [(call, path)] }.move call
      (.answered (.ok (.pending remaining)))
  | (entered, .last modules) =>
    { session with barrier := entered, accepted := session.accepted ++ [(call, path)] }.move call
      (.collected modules)

/-- The request that a call hands to the aligner, if there is one. -/
def handed (session : Session) (call : Nat) (modules : List Registered) : List (Nat × Request) :=
  match combinedRequest session.barrier.policy modules with
  | .ok request => [(call, request)]
  | .error _ => []

def publish (session : Session) (call : Nat) (modules : List Registered) : Session :=
  { session with
    barrier := (session.barrier.publish modules).1
    requests := session.requests ++ session.handed call modules }.move call
      (.aligned (session.barrier.publish modules).2)

def settle (session : Session) (call : Nat) (result : Except Stop AlignmentHandle) : Session :=
  { session with barrier := (session.barrier.settle result).1 }.move call
    (.answered (session.barrier.settle result).2)

/-- A call takes its next step. One that is through, or that there is not, does nothing. -/
def step (session : Session) (call : Nat) : Session :=
  match session.registrations[call]? with
  | none => session
  | some registration =>
    match session.progress call with
    | .arrived => session.lookUp call registration
    | .located path => session.check call path registration
    | .collected modules => session.publish call modules
    | .aligned result => session.settle call result
    | .answered _ => session

/-- The calls take steps in the order of a schedule, which names a call for every step. -/
def run (session : Session) (schedule : List Nat) : Session :=
  schedule.foldl step session

theorem run_cons (session : Session) (call : Nat) (schedule : List Nat) :
    session.run (call :: schedule) = (session.step call).run schedule := rfl

theorem run_append (session : Session) (first second : List Nat) :
    session.run (first ++ second) = (session.run first).run second :=
  List.foldl_append

/-! ### What a step can do -/

/-- Everything that a step of a call can do, and what is known when it does it. -/
inductive Step (session : Session) (call : Nat) : Session → Prop
  | idle : Step session call session
  | unknown {registration : Registration} {error : AlignmentError}
      (registered : session.registrations[call]? = some registration)
      (arrived : session.progress call = .arrived)
      (lookup : session.barrier.tree.resolve registration.module = .error error) :
      Step session call (session.move call (.answered (.error (.failed error))))
  | found {registration : Registration} {path : String}
      (registered : session.registrations[call]? = some registration)
      (arrived : session.progress call = .arrived)
      (lookup : session.barrier.tree.resolve registration.module = .ok path) :
      Step session call (session.move call (.located path))
  | refused {path : String} {error : AlignmentError}
      (located : session.progress call = .located path)
      (refuses : session.barrier.Refuses path error) :
      Step session call (session.move call (.answered (.error (.failed error))))
  | rejected {registration : Registration} {path : String} {error : AlignmentError}
      (registered : session.registrations[call]? = some registration)
      (located : session.progress call = .located path)
      (admits : session.barrier.Admits path registration (.error error)) :
      Step session call
        ({ session with barrier := { session.barrier with phase := .failed error.restate } }.move
          call (.answered (.error (.failed error))))
  | waiting {registration admitted : Registration} {path : String}
      (registered : session.registrations[call]? = some registration)
      (located : session.progress call = .located path)
      (admits : session.barrier.Admits path registration (.ok admitted))
      (others : session.barrier.remaining.erase path ≠ []) :
      Step session call
        ({ session with
            barrier := session.barrier.store path admitted
            accepted := session.accepted ++ [(call, path)] }.move call
          (.answered (.ok (.pending (session.barrier.remaining.erase path).length))))
  | last {registration admitted : Registration} {path : String}
      (registered : session.registrations[call]? = some registration)
      (located : session.progress call = .located path)
      (admits : session.barrier.Admits path registration (.ok admitted))
      (none : session.barrier.remaining.erase path = []) :
      Step session call
        ({ session with
            barrier := { session.barrier.store path admitted with phase := .aligning }
            accepted := session.accepted ++ [(call, path)] }.move call
          (.collected (session.barrier.store path admitted).inOrder))
  | published {modules : List Registered}
      (collected : session.progress call = .collected modules) :
      Step session call (session.publish call modules)
  | settled {result : Except Stop AlignmentHandle}
      (aligned : session.progress call = .aligned result) :
      Step session call (session.settle call result)

theorem check_spec {session : Session} {call : Nat} {path : String} {registration : Registration}
    (registered : session.registrations[call]? = some registration)
    (located : session.progress call = .located path) :
    Step session call (session.check call path registration) := by
  rw [check]
  rcases session.barrier.enterAt_cases path registration with
    ⟨error, refuses, henter⟩ | ⟨error, admits, henter⟩ | ⟨admitted, admits, henter⟩
  · rw [henter]
    exact .refused located refuses
  · rw [henter]
    exact .rejected registered located admits
  · by_cases hnone : session.barrier.remaining.erase path = []
    · rw [henter, Barrier.accept_of_none hnone]
      exact .last registered located admits hnone
    · rw [henter, Barrier.accept_of_others hnone]
      exact .waiting registered located admits hnone

/-- Every step is one of those listed. -/
theorem step_spec (session : Session) (call : Nat) : Step session call (session.step call) := by
  rw [step]
  split
  · exact .idle
  · rename_i registration registered
    split
    · rename_i arrived
      rw [lookUp]
      split
      · rename_i error lookup
        exact .unknown registered arrived lookup
      · rename_i path lookup
        exact .found registered arrived lookup
    · rename_i path located
      exact check_spec registered located
    · rename_i modules collected
      exact .published collected
    · rename_i result aligned
      exact .settled aligned
    · exact .idle

/-! ### What a step leaves alone -/

theorem Step.registrations_eq {session next : Session} {call : Nat}
    (taken : Step session call next) : next.registrations = session.registrations := by
  cases taken with
  | _ => rfl

/-- A step of one call leaves the others where they are. -/
theorem Step.progress_of_ne {session next : Session} {call other : Nat}
    (taken : Step session call next) (h : other ≠ call) :
    next.progress other = session.progress other := by
  cases taken with
  | idle => rfl
  | published => rw [publish, progress_move_of_ne h]
  | settled => rw [settle, progress_move_of_ne h]
  | _ => rw [progress_move_of_ne h]

theorem step_of_answered {session : Session} {call : Nat}
    {status : Except Stop RegistrationStatus} (h : session.progress call = .answered status) :
    session.step call = session := by
  rw [step]
  split
  · rfl
  · simp only [h]

theorem run_of_answered {session : Session} {call : Nat} {status : Except Stop RegistrationStatus}
    (h : session.progress call = .answered status) (schedule : List Nat) :
    (session.run schedule).progress call = .answered status := by
  induction schedule generalizing session with
  | nil => exact h
  | cons next rest ih =>
    rw [run_cons]
    apply ih
    by_cases hnext : call = next
    · rw [← hnext, step_of_answered h, h]
    · rw [(step_spec session next).progress_of_ne hnext, h]

theorem run_of_not_mem {session : Session} {call : Nat} {schedule : List Nat}
    (h : call ∉ schedule) : (session.run schedule).progress call = session.progress call := by
  induction schedule generalizing session with
  | nil => rfl
  | cons next rest ih =>
    rw [List.mem_cons, not_or] at h
    rw [run_cons, ih h.2, (step_spec session next).progress_of_ne h.1]

theorem run_induction {motive : Session → Prop} {session : Session}
    (kept : ∀ before call next, motive before → Step before call next → motive next)
    (start : motive session) (schedule : List Nat) : motive (session.run schedule) := by
  induction schedule generalizing session with
  | nil => exact start
  | cons call rest ih =>
    rw [run_cons]
    exact ih (kept session call _ start (step_spec session call))

theorem run_registrations_eq (session : Session) (schedule : List Nat) :
    (session.run schedule).registrations = session.registrations :=
  run_induction (motive := fun moved => moved.registrations = session.registrations)
    (fun _ _ _ hbefore taken => taken.registrations_eq.trans hbefore) rfl schedule

/-! ### Steps in a row -/

section Row

variable {session : Session} {call : Nat} {registration : Registration}

theorem step_of_arrived (registered : session.registrations[call]? = some registration)
    (arrived : session.progress call = .arrived) :
    session.step call = session.lookUp call registration := by
  rw [step, registered]
  simp only [arrived]

theorem step_of_located {path : String}
    (registered : session.registrations[call]? = some registration)
    (located : session.progress call = .located path) :
    session.step call = session.check call path registration := by
  rw [step, registered]
  simp only [located]

theorem step_of_collected {modules : List Registered}
    (registered : session.registrations[call]? = some registration)
    (collected : session.progress call = .collected modules) :
    session.step call = session.publish call modules := by
  rw [step, registered]
  simp only [collected]

theorem step_of_aligned {result : Except Stop AlignmentHandle}
    (registered : session.registrations[call]? = some registration)
    (aligned : session.progress call = .aligned result) :
    session.step call = session.settle call result := by
  rw [step, registered]
  simp only [aligned]

/-- A call that is through has nothing left to do. -/
theorem run_replicate_of_answered {status : Except Stop RegistrationStatus}
    (h : session.progress call = .answered status) (count : Nat) :
    session.run (List.replicate count call) = session := by
  induction count with
  | zero => rfl
  | succ count ih => rw [List.replicate_succ, run_cons, step_of_answered h, ih]

/-- Once a call has collected the build, its last two steps are those of a registration. -/
theorem run_of_collected {modules : List Registered}
    (registered : session.registrations[call]? = some registration)
    (collected : session.progress call = .collected modules) :
    (session.run (List.replicate 2 call)).barrier
        = ((session.barrier.publish modules).1.settle (session.barrier.publish modules).2).1 ∧
      (session.run (List.replicate 2 call)).progress call
        = .answered
          ((session.barrier.publish modules).1.settle (session.barrier.publish modules).2).2 := by
  have haligned : (session.publish call modules).progress call
      = .aligned (session.barrier.publish modules).2 := by
    rw [publish, progress_move_self]
  have hregistered : (session.publish call modules).registrations[call]? = some registration :=
    registered
  rw [List.replicate_succ, run_cons, step_of_collected registered collected, List.replicate_succ,
    run_cons, step_of_aligned hregistered haligned, List.replicate_zero]
  refine ⟨rfl, ?_⟩
  show (Session.settle _ call _).progress call = _
  rw [settle, progress_move_self]
  rfl

/-- A call that takes its four steps in a row registers its module as if nobody else were there. -/
theorem run_row (registered : session.registrations[call]? = some registration)
    (arrived : session.progress call = .arrived) :
    (session.run (List.replicate 4 call)).barrier = (session.barrier.register registration).1 ∧
      (session.run (List.replicate 4 call)).progress call
        = .answered (session.barrier.register registration).2 := by
  have hdone : ∀ (count : Nat) (barrier : Barrier) (reached : Session)
      (status : Except Stop RegistrationStatus), reached.barrier = barrier →
      reached.progress call = .answered status →
      (reached.run (List.replicate count call)).barrier = barrier ∧
        (reached.run (List.replicate count call)).progress call = .answered status := by
    intro count barrier reached status hbarrier hanswered
    rw [run_replicate_of_answered hanswered]
    exact ⟨hbarrier, hanswered⟩
  rw [List.replicate_succ, run_cons, step_of_arrived registered arrived, lookUp,
    Barrier.register, Barrier.enter]
  cases hresolve : session.barrier.tree.resolve registration.module with
  | error error => exact hdone 3 _ _ _ rfl (by rw [progress_move_self])
  | ok path =>
    have hlocated : (session.move call (.located path)).progress call = .located path := by
      rw [progress_move_self]
    have hregistered : (session.move call (.located path)).registrations[call]?
        = some registration := registered
    simp only
    rw [List.replicate_succ, run_cons, step_of_located hregistered hlocated, check]
    cases henter : session.barrier.enterAt path registration with
    | mk entered entry =>
      have hmoved : (session.move call (.located path)).barrier.enterAt path registration
          = (entered, entry) := henter
      rw [hmoved]
      cases entry with
      | refused error => exact hdone 2 _ _ _ rfl (by rw [progress_move_self])
      | waiting remaining => exact hdone 2 _ _ _ rfl (by rw [progress_move_self])
      | last modules => exact run_of_collected registered (by rw [progress_move_self])

end Row

/-- The schedule in which some calls take all their steps, one call after another. -/
def rows (first count : Nat) : List Nat :=
  (List.range' first count).flatMap (List.replicate 4)

/-- Calls that come one after another register their modules one after another. -/
theorem run_rows {session : Session} {first : Nat} {rest : List Registration}
    (hrest : session.registrations.drop first = rest)
    (harrived : ∀ call, first ≤ call → session.progress call = .arrived) :
    (session.run (rows first rest.length)).barrier = (session.barrier.registerAll rest).1 := by
  induction rest generalizing session first with
  | nil => rfl
  | cons registration rest ih =>
    have hregistered : session.registrations[first]? = some registration := by
      have hhead := congrArg (fun registrations => registrations[0]?) hrest
      simpa using hhead
    have hnext : (session.run (List.replicate 4 first)).registrations.drop (first + 1) = rest := by
      rw [run_registrations_eq, ← List.tail_drop, hrest]
      rfl
    have hwaiting : ∀ call, first + 1 ≤ call →
        (session.run (List.replicate 4 first)).progress call = .arrived := by
      intro call hcall
      have hnot : call ∉ List.replicate 4 first := by
        intro hmem
        have heq := List.eq_of_mem_replicate hmem
        omega
      rw [run_of_not_mem hnot]
      exact harrived call (by omega)
    have hrow := (run_row hregistered (harrived first (Nat.le_refl first))).1
    have hsplit : rows first (registration :: rest).length
        = List.replicate 4 first ++ rows (first + 1) rest.length := by
      rw [rows, List.length_cons, List.range'_succ, List.flatMap_cons]
      rfl
    rw [hsplit, run_append, ih hnext hwaiting, hrow, Barrier.registerAll]

/-- Modules that register one after another are a session. -/
theorem run_start_rows (barrier : Barrier) (registrations : List Registration) :
    ((start barrier registrations).run (rows 0 registrations.length)).barrier
      = (barrier.registerAll registrations).1 :=
  run_rows rfl fun _ _ => rfl

end Session

/-! ### A small build -/

namespace SmallBuild

def tree : ModuleTree :=
  .node (.new "app" "org.example") [("core", .single (.new "core" "org.example"))]

def aligner : Aligner :=
  { authority := some fun asked => .ok (asked.map fun coordinate => (coordinate, "2.0"))
    source := .rest }

def barrier : Barrier :=
  { aligner, policy := {}, order := [":", ":core"], remaining := [":", ":core"], tree }

theorem opened : Barrier.Opened tree aligner {} barrier := .new rfl

theorem resolve_app : tree.resolve ":" = .ok ":" := by
  rw [ModuleTree.resolve, show Text.trim ":" = ":" by decide]
  rfl

theorem resolve_core : tree.resolve "core" = .ok ":core" := by
  rw [ModuleTree.resolve, show Text.trim "core" = "core" by decide]
  rfl

def registrationOf (module artifact : String) (dependencies : List Dependency) : Registration :=
  ⟨module, ⟨"org.example", artifact, "1.0"⟩, dependencies⟩

end SmallBuild

end BuildAlignment
