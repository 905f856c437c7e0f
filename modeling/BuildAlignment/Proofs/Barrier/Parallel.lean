import BuildAlignment.Proofs.Barrier.Calls
import BuildAlignment.Proofs.Barrier.Recorded
import BuildAlignment.Proofs.ModuleTree.Location

/-!
# Barriers with different aligners

Two barriers that differ in their aligners do the same up to the last registration. What they are to
have in common then is a likeness of what their aligners make of the same registrations, and nothing
that is called afterwards brings them further apart.

* `Likeness` says which errors and which results are alike.
* `Barrier.Parallel` holds of two barriers that have come to like results, or still would.
* `Barrier.Parallel.register`: a call is answered alike and keeps them parallel.
* `Barrier.Parallel.registerAll`: so are any number of calls.
-/

namespace BuildAlignment

open ModuleTree (SameOutline)

/-- Two results that fail with related errors or succeed with related values. -/
inductive Matched {ε α : Type} (errors : ε → ε → Prop) (values : α → α → Prop) :
    Except ε α → Except ε α → Prop
  | ok {first second : α} (holds : values first second) :
      Matched errors values (.ok first) (.ok second)
  | error {first second : ε} (holds : errors first second) :
      Matched errors values (.error first) (.error second)

theorem Matched.imp {ε α : Type} {errors others : ε → ε → Prop} {values : α → α → Prop}
    (himp : ∀ first second, errors first second → others first second) {first second : Except ε α}
    (h : Matched errors values first second) : Matched others values first second := by
  cases h with
  | ok holds => exact .ok holds
  | error holds => exact .error (himp _ _ holds)

theorem Matched.imp_values {ε α : Type} {errors : ε → ε → Prop} {values others : α → α → Prop}
    (himp : ∀ first second, values first second → others first second) {first second : Except ε α}
    (h : Matched errors values first second) : Matched errors others first second := by
  cases h with
  | ok holds => exact .ok (himp _ _ holds)
  | error holds => exact .error holds

theorem Matched.eq {ε α : Type} {errors : ε → ε → Prop}
    (heq : ∀ first second, errors first second → first = second) {first second : Except ε α}
    (h : Matched errors Eq first second) : first = second := by
  cases h with
  | ok holds => rw [holds]
  | error holds => rw [heq _ _ holds]

theorem Matched.map {ε α β : Type} {errors : ε → ε → Prop} {values : α → α → Prop}
    {others : β → β → Prop} {f g : α → β}
    (hmap : ∀ first second, values first second → others (f first) (g second))
    {first second : Except ε α} (h : Matched errors values first second) :
    Matched errors others (first.map f) (second.map g) := by
  cases h with
  | ok holds => exact .ok (hmap _ _ holds)
  | error holds => exact .error holds

/-- Two alignments that were both given up, or failed with related errors. -/
inductive Stop.Matched (errors : AlignmentError → AlignmentError → Prop) : Stop → Stop → Prop
  | failed {first second : AlignmentError} (holds : errors first second) :
      Matched errors (.failed first) (.failed second)
  | aborted : Matched errors .aborted .aborted

theorem Stop.Matched.imp {errors others : AlignmentError → AlignmentError → Prop}
    (himp : ∀ first second, errors first second → others first second) {first second : Stop}
    (h : Stop.Matched errors first second) : Stop.Matched others first second := by
  cases h with
  | failed holds => exact .failed (himp _ _ holds)
  | aborted => exact .aborted

theorem Stop.Matched.eq {errors : AlignmentError → AlignmentError → Prop}
    (heq : ∀ first second, errors first second → first = second) {first second : Stop}
    (h : Stop.Matched errors first second) : first = second := by
  cases h with
  | failed holds => rw [heq _ _ holds]
  | aborted => rfl

theorem Stop.Matched.refl {errors : AlignmentError → AlignmentError → Prop}
    (hrefl : ∀ error, errors error error) (stop : Stop) : Stop.Matched errors stop stop := by
  cases stop with
  | failed error => exact .failed (hrefl error)
  | aborted => exact .aborted

/-- Which errors of two runs are alike after some questions to their authorities, and which trees
with their handles are, when they are made of the same registrations. -/
structure Likeness where
  errors : List (List Coordinate) → AlignmentError → AlignmentError → Prop
  results : List Registered → ModuleTree × AlignmentHandle → ModuleTree × AlignmentHandle → Prop
  refl : ∀ asked error, errors asked error error
  restate : ∀ {asked error other}, errors asked error other →
    errors asked error.restate other.restate
  mono : ∀ {asked more error other}, asked ⊆ more → errors asked error other →
    errors more error other
  outline : ∀ {modules made met}, results modules made met → SameOutline made.1 met.1

namespace Likeness

variable (like : Likeness)

/-- Two outcomes of the same registrations that are alike. -/
def Outcomes (asked : List (List Coordinate)) (modules : List Registered) :
    Except Stop (ModuleTree × AlignmentHandle) → Except Stop (ModuleTree × AlignmentHandle) → Prop :=
  Matched (Stop.Matched (like.errors asked)) (like.results modules)

/-- Two statuses that are alike: the same number of modules is missing, or like results are there. -/
inductive Statuses : RegistrationStatus → RegistrationStatus → Prop
  | pending (remaining : Nat) : Statuses (.pending remaining) (.pending remaining)
  | complete {modules : List Registered} {tree other : ModuleTree} {handle met : AlignmentHandle}
      (results : like.results modules (tree, handle) (other, met)) :
      Statuses (.complete handle) (.complete met)

/-- Two answers to a call that are alike. -/
def Answers (asked : List (List Coordinate)) :
    Except Stop RegistrationStatus → Except Stop RegistrationStatus → Prop :=
  Matched (Stop.Matched (like.errors asked)) like.Statuses

variable {like}

theorem Answers.failed {asked : List (List Coordinate)} {first second : AlignmentError}
    (holds : like.errors asked first second) :
    like.Answers asked (.error (.failed first)) (.error (.failed second)) :=
  .error (.failed holds)

theorem Answers.mono {asked more : List (List Coordinate)} (hsubset : asked ⊆ more)
    {first second : Except Stop RegistrationStatus} (h : like.Answers asked first second) :
    like.Answers more first second :=
  Matched.imp (fun _ _ hstops => hstops.imp fun _ _ herrors => like.mono hsubset herrors) h

end Likeness

namespace Barrier

/-- The same barrier with another aligner. -/
def withAligner (barrier : Barrier) (aligner : Aligner) : Barrier := { barrier with aligner }

/-- Barriers for one build and one policy differ in their aligners. -/
theorem seededWith_withAligner {tree : ModuleTree} {first second : Aligner} {policy : BarrierPolicy}
    {fresh other : Barrier} (made : Barrier.new tree first policy = .ok fresh)
    (made' : Barrier.new tree second policy = .ok other) (previous : Option ModuleTree) :
    other.seededWith previous = (fresh.seededWith previous).withAligner second := by
  obtain ⟨versions, hversions, rfl⟩ := of_map_eq_ok made
  obtain ⟨same, hsame, rfl⟩ := of_map_eq_ok made'
  rw [hversions] at hsame
  cases hsame
  cases previous with
  | none => rfl
  | some earlier => rfl

/-- An aligner is only used when the last module has registered. -/
theorem enterAt_withAligner (barrier : Barrier) (aligner : Aligner) (path : String)
    (registration : Registration) :
    (barrier.withAligner aligner).enterAt path registration
      = ((barrier.enterAt path registration).1.withAligner aligner,
        (barrier.enterAt path registration).2) := by
  have hphase : (barrier.withAligner aligner).phase = barrier.phase := rfl
  have hthere : (barrier.withAligner aligner).registration? path = barrier.registration? path := rfl
  have hpolicy : (barrier.withAligner aligner).policy = barrier.policy := rfl
  have hrecorded : (barrier.withAligner aligner).recorded = barrier.recorded := rfl
  rw [enterAt, enterAt, hphase, hthere, hpolicy, hrecorded]
  cases barrier.phase with
  | failed error => rfl
  | aligning => rfl
  | completed handle => rfl
  | collecting =>
    simp only
    split
    · rfl
    · cases registration.admitted barrier.policy (barrier.recorded.at path) path with
      | error error => rfl
      | ok admitted =>
        by_cases hnone : barrier.remaining.erase path = []
        · have hother : (barrier.withAligner aligner).remaining.erase path = [] := hnone
          simp only [accept_of_none hnone, accept_of_none hother]
          rfl
        · have hother : (barrier.withAligner aligner).remaining.erase path ≠ [] := hnone
          simp only [accept_of_others hnone, accept_of_others hother]
          rfl

/-- What is asked later comes behind what has been asked. -/
theorem Calls.asked_subset {barrier next : Barrier} {registration : Registration}
    {status : Except Stop RegistrationStatus} (called : Calls barrier registration next status) :
    barrier.asked ⊆ next.asked := by
  cases called with
  | unknown => exact List.Subset.refl _
  | refused => exact List.Subset.refl _
  | rejected => exact List.Subset.refl _
  | waiting => exact List.Subset.refl _
  | last _ _ _ finishes =>
    cases finishes with
    | completed => exact List.subset_append_left _ _
    | failed => exact List.subset_append_left _ _
    | aborted => exact List.subset_append_left _ _

theorem asked_subset_registerAll (barrier : Barrier) (registrations : List Registration) :
    barrier.asked ⊆ (barrier.registerAll registrations).1.asked := by
  induction registrations generalizing barrier with
  | nil => exact List.Subset.refl _
  | cons registration rest ih =>
    rw [registerAll_cons (Prod.eta _).symm]
    exact List.Subset.trans (barrier.calls registration).asked_subset (ih _)

/-- The aligner makes like things of whatever registrations the barrier collects, and asks the same
for them. -/
structure Likens (like : Likeness) (barrier : Barrier) (aligner : Aligner) : Prop where
  outcomes : ∀ modules, like.Outcomes (barrier.questions modules) modules
    (barrier.outcome modules) ((barrier.withAligner aligner).outcome modules)
  questions : ∀ modules,
    (barrier.withAligner aligner).questions modules = barrier.questions modules

/-- Two barriers that have come to like results, or would if the other modules registered. -/
inductive Parallel (like : Likeness) : Barrier → Barrier → Prop
  | running {barrier : Barrier} {aligner : Aligner}
      (unfinished : barrier.phase = .collecting ∨ barrier.phase = .aligning)
      (likens : barrier.Likens like aligner) :
      Parallel like barrier (barrier.withAligner aligner)
  | completed {first second : Barrier} {handle other : AlignmentHandle}
      (asked : first.asked = second.asked)
      (phase : first.phase = .completed handle) (phase' : second.phase = .completed other)
      (results : like.results first.inOrder (first.tree, handle) (second.tree, other)) :
      Parallel like first second
  | failed {first second : Barrier} {error other : AlignmentError}
      (asked : first.asked = second.asked)
      (phase : first.phase = .failed error) (phase' : second.phase = .failed other)
      (tree : first.tree = second.tree) (errors : like.errors first.asked error other) :
      Parallel like first second

namespace Likens

variable {like : Likeness} {barrier : Barrier} {aligner : Aligner}

/-- How far a barrier is makes no difference. -/
theorem move (h : barrier.Likens like aligner) {next : Barrier} (halike : next.Alike barrier)
    (htree : next.tree = barrier.tree) : next.Likens like aligner := by
  have halike' : (next.withAligner aligner).Alike (barrier.withAligner aligner) :=
    ⟨rfl, halike.policy, halike.recorded, halike.order⟩
  constructor
  · intro modules
    rw [outcome_congr halike htree, questions_congr halike, outcome_congr halike' htree]
    exact h.outcomes modules
  · intro modules
    rw [questions_congr halike, questions_congr halike']
    exact h.questions modules

/-- The last steps of the last registration come to like results. -/
theorem finishing (h : barrier.Likens like aligner) (haligning : barrier.phase = .aligning) :
    Parallel like barrier.finishing.1 (barrier.withAligner aligner).finishing.1 ∧
      like.Answers barrier.finishing.1.asked barrier.finishing.2
        (barrier.withAligner aligner).finishing.2 := by
  have hcollected : (barrier.withAligner aligner).inOrder = barrier.inOrder := rfl
  have hquestions := h.questions barrier.inOrder
  have hmore : barrier.questions barrier.inOrder
      ⊆ barrier.asked ++ barrier.questions barrier.inOrder := List.subset_append_right _ _
  have houtcomes := h.outcomes barrier.inOrder
  have hagain : ({ barrier with asked := barrier.asked ++ barrier.questions barrier.inOrder }
      : Barrier).Likens like aligner := h.move ⟨rfl, rfl, rfl, rfl⟩ rfl
  rw [Barrier.finishing, Barrier.finishing, publish_eq, publish_eq, treeAfter, treeAfter,
    hcollected, hquestions]
  generalize houtcome : barrier.outcome barrier.inOrder = made,
    (barrier.withAligner aligner).outcome barrier.inOrder = met at houtcomes
  cases houtcomes with
  | ok hresults => exact ⟨.completed rfl rfl rfl hresults, .ok (.complete hresults)⟩
  | error hstops =>
    cases hstops with
    | failed herrors =>
      have hasked := like.mono hmore herrors
      exact ⟨.failed rfl rfl rfl rfl (like.restate hasked), .failed hasked⟩
    | aborted => exact ⟨.running (.inr haligning) hagain, .error .aborted⟩

end Likens

namespace Parallel

variable {like : Likeness} {first second : Barrier}

theorem asked_eq (h : Parallel like first second) : first.asked = second.asked := by
  cases h with
  | running => rfl
  | completed asked => exact asked
  | failed asked => exact asked

theorem outline (h : Parallel like first second) : SameOutline first.tree second.tree := by
  cases h with
  | running => exact .refl _
  | completed _ _ _ results => exact like.outline results
  | failed _ _ _ tree => exact tree ▸ .refl _

theorem register (h : Parallel like first second) (registration : Registration) :
    Parallel like (first.register registration).1 (second.register registration).1 ∧
      like.Answers (first.register registration).1.asked (first.register registration).2
        (second.register registration).2 := by
  have hresolve := ModuleTree.resolve_congr h.outline registration.module
  rw [Barrier.register, Barrier.register, enter, enter, ← hresolve]
  cases first.tree.resolve registration.module with
  | error error => exact ⟨h, .failed (like.refl _ _)⟩
  | ok path =>
    simp only
    cases h with
    | completed asked phase phase' results =>
      rw [enterAt, enterAt, phase, phase']
      exact ⟨.completed asked phase phase' results, .failed (like.refl _ _)⟩
    | failed asked phase phase' tree errors =>
      rw [enterAt, enterAt, phase, phase']
      exact ⟨.failed asked phase phase' tree errors, .failed (like.restate errors)⟩
    | @running aligner unfinished likens =>
      rw [enterAt_withAligner]
      rcases first.enterAt_cases path registration with
        ⟨error, -, henter⟩ | ⟨error, -, henter⟩ | ⟨admitted, admits, henter⟩
      · rw [henter]
        exact ⟨.running unfinished likens, .failed (like.refl _ _)⟩
      · rw [henter]
        exact ⟨.failed rfl rfl rfl rfl (like.refl _ _), .failed (like.refl _ _)⟩
      · by_cases hnone : first.remaining.erase path = []
        · rw [henter, accept_of_none hnone]
          have hstored : ({ first.store path admitted with phase := .aligning }
              : Barrier).Likens like aligner := likens.move ⟨rfl, rfl, rfl, rfl⟩ rfl
          exact hstored.finishing rfl
        · rw [henter, accept_of_others hnone]
          exact ⟨.running unfinished (likens.move ⟨rfl, rfl, rfl, rfl⟩ rfl), .ok (.pending _)⟩

theorem registerAll (h : Parallel like first second) (registrations : List Registration) :
    Parallel like (first.registerAll registrations).1 (second.registerAll registrations).1 ∧
      List.Forall₂ (like.Answers (first.registerAll registrations).1.asked)
        (first.registerAll registrations).2 (second.registerAll registrations).2 := by
  induction registrations generalizing first second with
  | nil => exact ⟨h, .nil⟩
  | cons registration rest ih =>
    obtain ⟨hnext, hanswer⟩ := h.register registration
    obtain ⟨hfinal, hanswers⟩ := ih hnext
    rw [registerAll_cons (Prod.eta _).symm, registerAll_cons (Prod.eta _).symm]
    exact ⟨hfinal, .cons (hanswer.mono (asked_subset_registerAll _ _)) hanswers⟩

/-- Both tell like handles, or like errors. -/
theorem finishedHandle (h : Parallel like first second) :
    Matched (like.errors first.asked)
      (fun handle other => like.results first.inOrder (first.tree, handle) (second.tree, other))
      first.finishedHandle second.finishedHandle := by
  rw [Barrier.finishedHandle, Barrier.finishedHandle]
  cases h with
  | completed asked phase phase' results =>
    rw [phase, phase']
    exact .ok results
  | failed asked phase phase' tree errors =>
    rw [phase, phase']
    exact .error (like.restate errors)
  | @running aligner unfinished likens =>
    have hphase : (first.withAligner aligner).phase = first.phase := rfl
    rw [hphase]
    rcases unfinished with hcollecting | haligning
    · rw [hcollecting]
      exact .error (like.refl _ _)
    · rw [haligning]
      exact .error (like.refl _ _)

end Parallel

end Barrier

end BuildAlignment
