import BuildAlignment.Proofs.Barrier.Calls
import BuildAlignment.Proofs.Barrier.Independence
import BuildAlignment.Proofs.Barrier.Replacements

/-!
# Seeding with a disabled source

Where no authority is asked, an earlier tree still stands in for what the dependencies resolve to.
The same calls come to the same answers with it and without it, but for the replacements and for
what is not aligned. Where it has no other version for any dependency, they come to the same.

* `Barrier.Abreast` holds of two barriers that have collected the same coordinates and are equally
  far. By `Barrier.Abreast.register` a call keeps them abreast, and by `Barrier.Abreast.registerAll`
  any number of calls does.
* `Barrier.Renews` says that an earlier tree has another version for a dependency. By
  `Barrier.Unseeded.registerAll` a barrier is not changed by one that renews nothing.
* `Barrier.seeding_of_disabled`: both for a new barrier and any calls.
-/

namespace BuildAlignment

open ModuleTree (SameModules)

/-! ### Answers that differ in what is not aligned -/

inductive RegistrationStatus.Same : RegistrationStatus → RegistrationStatus → Prop
  | pending (remaining : Nat) : Same (.pending remaining) (.pending remaining)
  | complete {handle other : AlignmentHandle} (handles : handle.Same other) :
      Same (.complete handle) (.complete other)

inductive Phase.Same : Phase → Phase → Prop
  | collecting : Same .collecting .collecting
  | aligning : Same .aligning .aligning
  | completed {handle other : AlignmentHandle} (handles : handle.Same other) :
      Same (.completed handle) (.completed other)
  | failed (error : AlignmentError) : Same (.failed error) (.failed error)

/-! ### Registrations with the same coordinates -/

/-- What was recorded does not decide whether dependencies are admitted. -/
theorem admitDependencies_agree (policy : BarrierPolicy) (recorded other : Keyed Coordinate)
    (path : String) (dependencies : List Dependency) :
    AgreeUpTo (fun _ _ => True) (admitDependencies policy recorded path dependencies)
      (admitDependencies policy other path dependencies) := by
  induction dependencies with
  | nil => exact .ok trivial
  | cons dependency rest ih =>
    rw [admitDependencies, admitDependencies]
    split
    · exact ih
    · split
      · split
        · exact ih
        · exact .error _
      · exact ih.map fun _ _ _ => trivial

theorem Registration.admitted_agree (registration : Registration) (policy : BarrierPolicy)
    (recorded other : Keyed Coordinate) (path : String) :
    AgreeUpTo (fun admitted met => admitted.coordinate = met.coordinate)
      (registration.admitted policy recorded path) (registration.admitted policy other path) := by
  rw [admitted, admitted]
  refine AgreeUpTo.map ?_
    (admitDependencies_agree policy recorded other path registration.dependencies)
  exact fun _ _ _ => rfl

inductive Barrier.Entry.Same : Barrier.Entry → Barrier.Entry → Prop
  | refused (error : AlignmentError) : Same (.refused error) (.refused error)
  | waiting (remaining : Nat) : Same (.waiting remaining) (.waiting remaining)
  | last {modules others : List Registered}
      (outlines : modules.map Registered.outline = others.map Registered.outline) :
      Same (.last modules) (.last others)

namespace Barrier

/-- Two barriers that have collected the same coordinates and are equally far. Their authority, if
they ask one, does not mix up its answers. -/
structure Abreast (first second : Barrier) : Prop where
  aligner : first.aligner = second.aligner
  uniform : second.aligner.Uniform
  policy : first.policy = second.policy
  order : first.order = second.order
  remaining : first.remaining = second.remaining
  registered : first.registered.map Registered.outline = second.registered.map Registered.outline
  phase : first.phase.Same second.phase
  modules : SameModules first.tree second.tree
  /-- Before the build is complete the trees are those that the barriers were made for. -/
  untouched : (∀ handle, second.phase ≠ .completed handle) → first.tree = second.tree

/-- Whoever is told that it was the last one finds the barrier aligning. -/
theorem aligning_of_enterAt {barrier entered : Barrier} {path : String}
    {registration : Registration} {modules : List Registered}
    (h : barrier.enterAt path registration = (entered, .last modules)) :
    entered.phase = .aligning := by
  rcases barrier.enterAt_cases path registration with
    ⟨error, -, henter⟩ | ⟨error, -, henter⟩ | ⟨admitted, -, henter⟩
  · rw [henter] at h
    cases h
  · rw [henter] at h
    cases h
  · rw [henter, accept] at h
    split at h
    · cases h
      rfl
    · cases h

theorem aligner_of_enterAt {barrier entered : Barrier} {path : String}
    {registration : Registration} {entry : Entry}
    (h : barrier.enterAt path registration = (entered, entry)) :
    entered.aligner = barrier.aligner := by
  rcases barrier.enterAt_cases path registration with
    ⟨error, -, henter⟩ | ⟨error, -, henter⟩ | ⟨admitted, -, henter⟩
  · rw [henter] at h
    cases h
    rfl
  · rw [henter] at h
    cases h
    rfl
  · rw [henter, accept] at h
    split at h
    · cases h
      rfl
    · cases h
      rfl

namespace Abreast

variable {first second : Barrier}

/-- The same modules have registered, with the same coordinates. -/
theorem registration?_eq (h : Abreast first second) (path : String) :
    (first.registration? path).map Registration.coordinate
      = (second.registration? path).map Registration.coordinate := by
  have hside : ∀ barrier : Barrier, (barrier.registration? path).map Registration.coordinate
      = ((barrier.registered.map Registered.outline).find? fun entry => entry.1 == path).map
          Prod.snd := by
    intro barrier
    rw [registration?, List.find?_map, Option.map_map, Option.map_map]
    rfl
  rw [hside, hside, h.registered]

theorem isSome_registration?_eq (h : Abreast first second) (path : String) :
    (first.registration? path).isSome = (second.registration? path).isSome := by
  have hsome := congrArg Option.isSome (h.registration?_eq path)
  simpa only [Option.isSome_map] using hsome

/-- The registrations that are collected have the same coordinates. -/
theorem outline_inOrder (h : Abreast first second) :
    first.inOrder.map Registered.outline = second.inOrder.map Registered.outline := by
  have hside : ∀ barrier : Barrier, barrier.inOrder.map Registered.outline
      = barrier.order.eraseDups.filterMap fun path =>
          ((barrier.registration? path).map Registration.coordinate).map
            fun coordinate => (path, coordinate) := by
    intro barrier
    rw [inOrder, List.map_filterMap]
    simp only [Option.map_map]
    rfl
  rw [hside, hside, h.order]
  simp only [h.registration?_eq]

theorem accept (h : Abreast first second) (htree : first.tree = second.tree) (path : String)
    {admitted met : Registration} (hcoordinate : admitted.coordinate = met.coordinate) :
    Abreast (first.accept path admitted).1 (second.accept path met).1 ∧
      Entry.Same (first.accept path admitted).2 (second.accept path met).2 := by
  have hstored : Abreast (first.store path admitted) (second.store path met) := by
    refine { h with remaining := ?_, registered := ?_ }
    · rw [Barrier.store, Barrier.store, h.remaining]
    · rw [Barrier.store, Barrier.store, List.map_append, List.map_append, h.registered]
      simp [Registered.outline, hcoordinate]
  by_cases hnone : second.remaining.erase path = []
  · rw [accept_of_none hnone, accept_of_none (h.remaining ▸ hnone)]
    exact ⟨{ hstored with phase := .aligning, untouched := fun _ => htree },
      .last hstored.outline_inOrder⟩
  · rw [accept_of_others hnone, accept_of_others (h.remaining ▸ hnone), h.remaining]
    exact ⟨hstored, .waiting _⟩

theorem enterAt (h : Abreast first second) (path : String) (registration : Registration) :
    Abreast (first.enterAt path registration).1 (second.enterAt path registration).1 ∧
      Entry.Same (first.enterAt path registration).2 (second.enterAt path registration).2 := by
  have hphase := h.phase
  have huntouched := h.untouched
  rw [Barrier.enterAt, Barrier.enterAt]
  generalize first.phase = phase, second.phase = other at hphase huntouched ⊢
  cases hphase with
  | failed error => exact ⟨h, .refused _⟩
  | aligning => exact ⟨h, .refused _⟩
  | completed handles => exact ⟨h, .refused _⟩
  | collecting =>
    have htree : first.tree = second.tree := huntouched (by simp)
    simp only [h.isSome_registration?_eq path]
    split
    · exact ⟨h, .refused _⟩
    · have hadmitted := registration.admitted_agree second.policy (first.recorded.at path)
        (second.recorded.at path) path
      nth_rewrite 1 [← h.policy] at hadmitted
      generalize registration.admitted first.policy (first.recorded.at path) path = admitted,
        registration.admitted second.policy (second.recorded.at path) path = met at hadmitted ⊢
      cases hadmitted with
      | error error =>
        exact ⟨{ h with phase := .failed _, untouched := fun _ => htree }, .refused _⟩
      | ok hcoordinate => exact h.accept htree path hcoordinate

/-- What is collected is aligned alike. -/
theorem settle (h : Abreast first second) (haligning : second.phase = .aligning)
    {modules others : List Registered}
    (houtline : modules.map Registered.outline = others.map Registered.outline) :
    Abreast ((first.publish modules).1.settle (first.publish modules).2).1
        ((second.publish others).1.settle (second.publish others).2).1 ∧
      AgreeUpTo RegistrationStatus.Same
        ((first.publish modules).1.settle (first.publish modules).2).2
        ((second.publish others).1.settle (second.publish others).2).2 := by
  have htree : first.tree = second.tree := h.untouched (by simp [haligning])
  have hagree := agree_outcome h.aligner h.uniform h.policy htree houtline
  rw [publish_eq, publish_eq, treeAfter, treeAfter]
  generalize first.outcome modules = made, second.outcome others = met at hagree
  cases hagree with
  | error stop =>
    cases stop with
    | failed error =>
      exact ⟨{ h with phase := .failed _, untouched := fun _ => htree }, .error _⟩
    | aborted => exact ⟨{ h with untouched := fun _ => htree }, .error _⟩
  | ok hsame =>
    refine ⟨{ h with phase := .completed hsame.2, modules := hsame.1, untouched := ?_ },
      .ok (.complete hsame.2)⟩
    exact fun hnot => absurd rfl (hnot _)

/-- A call keeps two barriers abreast and is answered alike. -/
theorem register (h : Abreast first second) (registration : Registration) :
    Abreast (first.register registration).1 (second.register registration).1 ∧
      AgreeUpTo RegistrationStatus.Same (first.register registration).2
        (second.register registration).2 := by
  rw [Barrier.register, Barrier.register, enter, enter,
    ModuleTree.resolve_congr h.modules.outline]
  cases second.tree.resolve registration.module with
  | error error => exact ⟨h, .error _⟩
  | ok path =>
    obtain ⟨hentered, hentry⟩ := h.enterAt path registration
    simp only
    generalize hfirst : first.enterAt path registration = entered,
      hsecond : second.enterAt path registration = reached at hentered hentry
    obtain ⟨entered, entry⟩ := entered
    obtain ⟨reached, other⟩ := reached
    cases hentry with
    | refused error => exact ⟨hentered, .error _⟩
    | waiting remaining => exact ⟨hentered, .ok (.pending remaining)⟩
    | last houtline => exact hentered.settle (aligning_of_enterAt hsecond) houtline

theorem registerAll (h : Abreast first second) (registrations : List Registration) :
    Abreast (first.registerAll registrations).1 (second.registerAll registrations).1 ∧
      List.Forall₂ (AgreeUpTo RegistrationStatus.Same) (first.registerAll registrations).2
        (second.registerAll registrations).2 := by
  induction registrations generalizing first second with
  | nil => exact ⟨h, .nil⟩
  | cons registration rest ih =>
    obtain ⟨hnext, hanswer⟩ := h.register registration
    obtain ⟨hfinal, hanswers⟩ := ih hnext
    rw [registerAll_cons (Prod.eta _).symm, registerAll_cons (Prod.eta _).symm]
    exact ⟨hfinal, .cons hanswer hanswers⟩

theorem finishedHandle (h : Abreast first second) :
    AgreeUpTo AlignmentHandle.Same first.finishedHandle second.finishedHandle := by
  have hphase := h.phase
  rw [Barrier.finishedHandle, Barrier.finishedHandle, h.remaining]
  generalize first.phase = phase, second.phase = other at hphase
  cases hphase with
  | collecting => exact .error _
  | aligning => exact .error _
  | completed handles => exact .ok handles
  | failed error => exact .error _

theorem finishedModel (h : Abreast first second) :
    AgreeUpTo SameModules first.finishedModel second.finishedModel := by
  rw [Barrier.finishedModel, Barrier.finishedModel]
  exact h.finishedHandle.map fun _ _ _ => h.modules

end Abreast

/-! ### Earlier trees that renew nothing -/

/-- An earlier tree has another version for a dependency of a registration than this is resolved
to. -/
def Renews (tree earlier : ModuleTree) (registration : Registration) : Prop :=
  ∃ path, tree.resolve registration.module = .ok path ∧
    ∃ dependency ∈ registration.dependencies, dependency.takesPart = true ∧
      ∃ known ∈ earlier.told? path dependency.declared, ∃ resolved ∈ dependency.resolved,
        known.version ≠ resolved.version

theorem seed_of_not_renews {tree earlier : ModuleTree} {registration : Registration} {path : String}
    (h : ¬ Renews tree earlier registration)
    (hresolve : tree.resolve registration.module = .ok path) {dependency : Dependency}
    (hlisted : dependency ∈ registration.dependencies) (htakes : dependency.takesPart = true) :
    dependency.seed ((recordedOf earlier).at path) = dependency := by
  obtain ⟨declared, resolved⟩ := dependency
  rw [Dependency.seed_eq, find?_recordedOf]
  cases resolved with
  | none => rfl
  | some resolved =>
    cases htold : earlier.told? path declared with
    | none => rfl
    | some known =>
      have hsame : known.version = resolved.version := by
        by_contra hne
        exact h ⟨path, hresolve, _, hlisted, htakes, known, htold, resolved, rfl, hne⟩
      simp only [Option.map_some, Coordinate.renewed, if_pos hsame]

/-- What was recorded counts only for dependencies that it renews. -/
theorem admitDependencies_eq {policy : BarrierPolicy} {recorded : Keyed Coordinate} {path : String}
    {dependencies : List Dependency}
    (h : ∀ dependency ∈ dependencies, dependency.takesPart = true →
      dependency.seed recorded = dependency) :
    admitDependencies policy recorded path dependencies
      = admitDependencies policy [] path dependencies := by
  induction dependencies with
  | nil => rfl
  | cons dependency rest ih =>
    have hrest := ih fun other hother => h other (List.mem_cons_of_mem _ hother)
    have hnone : dependency.seed [] = dependency := rfl
    rw [admitDependencies, admitDependencies, hrest]
    split
    · rfl
    · rename_i hgroup
      split
      · rfl
      · rename_i hresolved
        have htakes : dependency.takesPart = true := by
          simp [Dependency.takesPart, hgroup, Option.isSome_iff_ne_none, ← Option.isNone_iff_eq_none,
            hresolved]
        rw [h dependency List.mem_cons_self htakes, hnone]

/-- A barrier that asks no authority and was not seeded. Until the build is complete it has the tree
that it was made for. -/
structure Unseeded (tree : ModuleTree) (barrier : Barrier) : Prop where
  recorded : barrier.recorded = []
  disabled : barrier.aligner.source = .disabled
  untouched : barrier.phase = .collecting → barrier.tree = tree

/-- Without an authority nothing that was recorded is pinned. -/
theorem publish_withPrevious {barrier : Barrier} (hsource : barrier.aligner.source = .disabled)
    (earlier : ModuleTree) (modules : List Registered) :
    (barrier.withPrevious earlier).publish modules
      = ((barrier.publish modules).1.withPrevious earlier, (barrier.publish modules).2) := by
  have houtcome : (barrier.withPrevious earlier).outcome modules = barrier.outcome modules := by
    have hpolicy : (barrier.withPrevious earlier).policy = barrier.policy := rfl
    have haligner : (barrier.withPrevious earlier).aligner = barrier.aligner := rfl
    rw [outcome, outcome, hpolicy, haligner]
    cases combinedRequest barrier.policy modules with
    | error stop => rfl
    | ok request =>
      simp only [Aligner.align, hsource, Aligner.outcomeOf]
      cases barrier.aligner.adjusted? (barrier.aligner.restricted request) .empty with
      | none => rfl
      | some response => rfl
  rw [publish_eq, publish_eq, treeAfter, treeAfter, houtcome]
  rfl

namespace Unseeded

variable {tree earlier : ModuleTree} {barrier : Barrier} {registration : Registration}

theorem enterAt (h : Unseeded tree barrier) (hnot : ¬ Renews tree earlier registration)
    {path : String} (hresolve : barrier.tree.resolve registration.module = .ok path) :
    (barrier.withPrevious earlier).enterAt path registration
      = ((barrier.enterAt path registration).1.withPrevious earlier,
        (barrier.enterAt path registration).2) := by
  have hphase : (barrier.withPrevious earlier).phase = barrier.phase := rfl
  have hthere : (barrier.withPrevious earlier).registration? path = barrier.registration? path := rfl
  rw [Barrier.enterAt, Barrier.enterAt, hphase, hthere]
  cases hcollecting : barrier.phase with
  | failed error => rfl
  | aligning => rfl
  | completed handle => rfl
  | collecting =>
    rw [h.untouched hcollecting] at hresolve
    have hadmitted : registration.admitted (barrier.withPrevious earlier).policy
          ((barrier.withPrevious earlier).recorded.at path) path
        = registration.admitted barrier.policy (barrier.recorded.at path) path := by
      rw [Registration.admitted, Registration.admitted, h.recorded]
      refine congrArg (Except.map _) (admitDependencies_eq ?_)
      exact fun _ hlisted htakes => seed_of_not_renews hnot hresolve hlisted htakes
    simp only [hadmitted]
    split
    · rfl
    · cases registration.admitted barrier.policy (barrier.recorded.at path) path with
      | error error => rfl
      | ok admitted =>
        by_cases hnone : barrier.remaining.erase path = []
        · have hseeded : (barrier.withPrevious earlier).remaining.erase path = [] := hnone
          simp only [accept_of_none hnone, accept_of_none hseeded]
          rfl
        · have hseeded : (barrier.withPrevious earlier).remaining.erase path ≠ [] := hnone
          simp only [accept_of_others hnone, accept_of_others hseeded]
          rfl

/-- A call does the same whether the barrier was seeded or not. -/
theorem register (h : Unseeded tree barrier) (hnot : ¬ Renews tree earlier registration) :
    (barrier.withPrevious earlier).register registration
      = ((barrier.register registration).1.withPrevious earlier,
        (barrier.register registration).2) := by
  have htree : (barrier.withPrevious earlier).tree = barrier.tree := rfl
  rw [Barrier.register, Barrier.register, enter, enter, htree]
  cases hresolve : barrier.tree.resolve registration.module with
  | error error => rfl
  | ok path =>
    simp only [h.enterAt hnot hresolve]
    cases henter : barrier.enterAt path registration with
    | mk entered entry =>
      cases entry with
      | refused error => rfl
      | waiting remaining => rfl
      | last modules =>
        have hsource : entered.aligner.source = .disabled := by
          rw [aligner_of_enterAt henter]
          exact h.disabled
        simp only [publish_withPrevious hsource]
        cases (entered.publish modules).2 with
        | ok handle => rfl
        | error stop =>
          cases stop with
          | failed error => rfl
          | aborted => rfl

theorem next (h : Unseeded tree barrier) {reached : Barrier}
    {status : Except Stop RegistrationStatus} (called : Calls barrier registration reached status) :
    Unseeded tree reached := by
  cases called with
  | unknown => exact h
  | refused => exact h
  | rejected => exact ⟨h.recorded, h.disabled, by simp⟩
  | waiting _ admits _ => exact ⟨h.recorded, h.disabled, fun _ => h.untouched admits.phase⟩
  | last _ _ _ finishes =>
    cases finishes with
    | completed => exact ⟨h.recorded, h.disabled, by simp⟩
    | failed => exact ⟨h.recorded, h.disabled, by simp⟩
    | aborted => exact ⟨h.recorded, h.disabled, by simp⟩

/-- However many calls come, an earlier tree that renews nothing changes nothing. -/
theorem registerAll (h : Unseeded tree barrier) {registrations : List Registration}
    (hnot : ∀ registration ∈ registrations, ¬ Renews tree earlier registration) :
    (barrier.withPrevious earlier).registerAll registrations
      = ((barrier.registerAll registrations).1.withPrevious earlier,
        (barrier.registerAll registrations).2) := by
  induction registrations generalizing barrier with
  | nil => rfl
  | cons registration rest ih =>
    have hfirst := h.register (hnot registration List.mem_cons_self)
    have hrest := ih (h.next (barrier.calls registration))
      fun other hother => hnot other (List.mem_cons_of_mem _ hother)
    rw [registerAll_cons hfirst, hrest, registerAll_cons (Prod.eta _).symm]

end Unseeded

/-! ### Seeding a new barrier -/

/-- Two sequences of calls have come to the same but for replacements and what is not aligned. -/
structure SameRun (first second : Barrier × List (Except Stop RegistrationStatus)) : Prop where
  answers : List.Forall₂ (AgreeUpTo RegistrationStatus.Same) first.2 second.2
  handle : AgreeUpTo AlignmentHandle.Same first.1.finishedHandle second.1.finishedHandle
  model : AgreeUpTo SameModules first.1.finishedModel second.1.finishedModel

/-- With a disabled source, calls come to the same with an earlier tree as without it, but for the
replacements and what is not aligned. These are the same too where the earlier tree has no other
version for any dependency. -/
theorem seeding_of_disabled {tree : ModuleTree} {aligner : Aligner} {policy : BarrierPolicy}
    {fresh : Barrier} (made : Barrier.new tree aligner policy = .ok fresh)
    (hsource : aligner.source = .disabled) (earlier : ModuleTree)
    (registrations : List Registration) :
    SameRun ((fresh.withPrevious earlier).registerAll registrations)
        (fresh.registerAll registrations) ∧
      ((∀ registration ∈ registrations, ¬ Renews tree earlier registration) →
        ((fresh.withPrevious earlier).registerAll registrations).2
            = (fresh.registerAll registrations).2 ∧
          ((fresh.withPrevious earlier).registerAll registrations).1.finishedHandle
            = (fresh.registerAll registrations).1.finishedHandle ∧
          ((fresh.withPrevious earlier).registerAll registrations).1.finishedModel
            = (fresh.registerAll registrations).1.finishedModel) := by
  have opened : Opened tree aligner policy fresh := .new made
  have hdisabled : fresh.aligner.source = .disabled := by
    rw [opened.eq]
    exact hsource
  have hphase : fresh.phase = .collecting := by rw [opened.eq]
  constructor
  · have habreast : Abreast (fresh.withPrevious earlier) fresh :=
      { aligner := rfl, uniform := .disabled hdisabled, policy := rfl, order := rfl, remaining := rfl
        registered := rfl, modules := .refl _, untouched := fun _ => rfl
        phase := by
          show fresh.phase.Same fresh.phase
          rw [hphase]
          exact .collecting }
    obtain ⟨hreached, hanswers⟩ := habreast.registerAll registrations
    exact ⟨hanswers, hreached.finishedHandle, hreached.finishedModel⟩
  · intro hnot
    have hunseeded : Unseeded tree fresh :=
      ⟨recorded_of_new made, hdisabled, fun _ => opened.tree_eq⟩
    rw [hunseeded.registerAll hnot]
    exact ⟨rfl, rfl, rfl⟩

end Barrier

namespace SmallBuild

def unasking : Barrier :=
  { aligner := { authority := none, source := .disabled }
    policy := {}, order := [":", ":core"], remaining := [":", ":core"], tree }

def ranged : ModuleTree :=
  .node (.new "app" "org.example") [("core", .single
    { ModuleInfo.new "core" "org.example" with
      aligned := [("org.lib:base:1.+", ⟨"org.lib", "base", "1.5"⟩)] })]

def rangedModules (version : String) : List Registration :=
  [registrationOf ":" "app" [], registrationOf ":core" "core"
    [⟨⟨"org.lib", "base", "1.+"⟩, some ⟨"org.lib", "base", version⟩⟩]]

theorem not_renews_ranged : ∀ registration ∈ rangedModules "1.5",
    ¬ Barrier.Renews tree ranged registration := by
  intro registration hmem hrenews
  obtain ⟨path, hresolve, dependency, hlisted, -, known, hknown, resolved, hresolved, hne⟩ := hrenews
  rcases List.mem_cons.1 hmem with rfl | hmem
  · cases hlisted
  · obtain rfl := List.mem_singleton.1 hmem
    obtain rfl := List.mem_singleton.1 hlisted
    have hpath : tree.resolve ":core" = .ok ":core" := by decide +kernel
    obtain rfl : ":core" = path := Except.ok.inj (hpath.symm.trans hresolve)
    have htold : ranged.told? ":core" ⟨"org.lib", "base", "1.+"⟩
        = some ⟨"org.lib", "base", "1.5"⟩ := by decide +kernel
    cases Option.some.inj (htold.symm.trans hknown)
    cases hresolved
    exact hne rfl

end SmallBuild

namespace Barrier

open SmallBuild (unasking ranged rangedModules)

/-- The range still comes to what was recorded for it. -/
theorem seeding_of_settled_range :
    Barrier.new SmallBuild.tree { authority := none, source := .disabled } {} = .ok unasking ∧
      (∀ registration ∈ rangedModules "1.5", ¬ Renews SmallBuild.tree ranged registration) ∧
      SameRun ((unasking.withPrevious ranged).registerAll (rangedModules "1.5"))
        (unasking.registerAll (rangedModules "1.5")) ∧
      ((unasking.withPrevious ranged).registerAll (rangedModules "1.5")).2
        = (unasking.registerAll (rangedModules "1.5")).2 := by
  have made : Barrier.new SmallBuild.tree { authority := none, source := .disabled } {}
      = .ok unasking := rfl
  obtain ⟨hsame, hequal⟩ := seeding_of_disabled made rfl ranged (rangedModules "1.5")
  exact ⟨made, SmallBuild.not_renews_ranged, hsame, (hequal SmallBuild.not_renews_ranged).1⟩

/-- The range comes to an older release than the recorded one. No authority is asked, and still the
recorded release is written into the tree and told to be not aligned. -/
theorem seeding_of_older_range :
    let plain := unasking.registerAll (rangedModules "1.4")
    let seeded := (unasking.withPrevious ranged).registerAll (rangedModules "1.4")
    let found (results : Barrier × List (Except Stop RegistrationStatus)) :=
      results.1.finishedModel.map fun result =>
        (result.find ":core").toOption.map fun found => found.info.aligned
    Barrier.new SmallBuild.tree { authority := none, source := .disabled } {} = .ok unasking ∧
      plain.2 = [.ok (.pending 1),
        .ok (.complete ⟨"1.0", true, [(":core", [⟨"org.lib", "base", "1.4"⟩])]⟩)] ∧
      seeded.2 = [.ok (.pending 1),
        .ok (.complete ⟨"1.0", true, [(":core", [⟨"org.lib", "base", "1.5"⟩])]⟩)] ∧
      found plain = .ok (some [("org.lib:base:1.+", ⟨"org.lib", "base", "1.4"⟩)]) ∧
      found seeded = .ok (some [("org.lib:base:1.+", ⟨"org.lib", "base", "1.5"⟩)]) ∧
      ¬ (seeded.2 = plain.2 ∧ seeded.1.finishedHandle = plain.1.finishedHandle ∧
        seeded.1.finishedModel = plain.1.finishedModel) := by
  intro plain seeded found
  have hplain : plain.2 = [.ok (.pending 1),
      .ok (.complete ⟨"1.0", true, [(":core", [⟨"org.lib", "base", "1.4"⟩])]⟩)] := by decide +kernel
  have hseeded : seeded.2 = [.ok (.pending 1),
      .ok (.complete ⟨"1.0", true, [(":core", [⟨"org.lib", "base", "1.5"⟩])]⟩)] := by decide +kernel
  refine ⟨rfl, hplain, hseeded, by decide +kernel, by decide +kernel, ?_⟩
  rintro ⟨hequal, -⟩
  rw [hplain, hseeded] at hequal
  exact absurd hequal (by decide)

end Barrier

end BuildAlignment
