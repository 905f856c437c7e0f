import BuildAlignment.Barrier
import BuildAlignment.Proofs.Sequence

/-!
# What publishing does

Publishing computes a tree and a handle, and what the authority is asked on the way. It changes
nothing else of a barrier.

* `Barrier.outcome` is the tree and the handle of an alignment, `Barrier.questions` what the
  authority is asked for it.
* `Barrier.publish_eq`: these two are all that publishing is about.
* `Barrier.Success` is the way to a successful outcome, by `Barrier.of_outcome_eq_ok`.
* `Barrier.Alike` holds of barriers that align alike, by `Barrier.outcome_congr` and
  `Barrier.questions_congr`.
-/

namespace BuildAlignment

/-- The combined request has the coordinates of the build, its version, and one part for every
registration. -/
theorem of_combinedRequest_eq_ok {policy : BarrierPolicy} {modules : List Registered}
    {request : Request} (h : combinedRequest policy modules = .ok request) :
    projectCoordinates? policy modules = some request.projects ∧
      projectVersion? modules = some request.projectVersion ∧
      request.modules = modules.map (moduleRequest (internalRefs modules)) := by
  rw [combinedRequest] at h
  split at h
  · cases h
  · rename_i projects hprojects
    split at h
    · cases h
    · rename_i version hversion
      cases h
      exact ⟨hprojects, hversion, rfl⟩

theorem modules_of_combinedRequest {policy : BarrierPolicy} {modules : List Registered}
    {request : Request} (h : combinedRequest policy modules = .ok request) :
    request.modules = modules.map (moduleRequest (internalRefs modules)) :=
  (of_combinedRequest_eq_ok h).2.2

/-- The versions that come from a source, with the lists that its authority was asked about. A
disabled source asks nothing and knows nothing. -/
inductive Answered (authority : Option Authority) :
    DependencySource → List (List Coordinate) → NewVersions → Prop
  | disabled : Answered authority .disabled [] []
  | rest {ask : Authority} {asked : List Coordinate} {versions : NewVersions}
      (there : authority = some ask) (answer : ask asked = .ok versions) :
      Answered authority .rest [asked] versions

namespace Aligner

variable {aligner : Aligner} {incoming : Request} {alignment : Alignment}

theorem outcomeOf_eq {wrap : Alignment → AlignmentOutcome} {request : Request}
    {response : Response} (h : aligner.outcomeOf wrap request response = wrap alignment)
    (hdone : ∀ other, wrap other ≠ .aborted)
    (hwrap : ∀ other, wrap other = wrap alignment → other = alignment) :
    alignment.request = request ∧
      aligner.adjusted? request response = some alignment.response := by
  rw [outcomeOf] at h
  split at h
  · rename_i adjusted hadjusted
    rw [← hwrap _ h]
    exact ⟨rfl, hadjusted⟩
  · exact absurd h.symm (hdone alignment)

theorem of_align_eq_skipped (h : (aligner.align incoming).outcome = .skipped alignment) :
    aligner.source = .disabled ∧ (aligner.align incoming).asked = none ∧
      alignment.request = aligner.restricted incoming ∧
      aligner.adjusted? (aligner.restricted incoming) .empty = some alignment.response := by
  rw [align] at h ⊢
  split at h
  · rename_i hsource
    obtain ⟨hrequest, hresponse⟩ :=
      outcomeOf_eq h (by simp) (fun other heq => AlignmentOutcome.skipped.inj heq)
    exact ⟨hsource, rfl, hrequest, hresponse⟩
  · cases h
  · dsimp only at h
    split at h
    · cases h
    · rw [outcomeOf] at h
      split at h
      · cases h
      · cases h

theorem of_align_eq_aligned (h : (aligner.align incoming).outcome = .aligned alignment) :
    ∃ ask versions, aligner.source = .rest ∧ aligner.authority = some ask ∧
      (aligner.align incoming).asked = some (aligner.restricted incoming).authorityCoordinates ∧
      ask (aligner.restricted incoming).authorityCoordinates = .ok versions ∧
      alignment.request = aligner.restricted incoming ∧
      aligner.adjusted? (aligner.restricted incoming)
          (.ofVersions versions (aligner.restricted incoming).projects)
        = some alignment.response := by
  rw [align] at h ⊢
  split at h
  · rw [outcomeOf] at h
    split at h
    · cases h
    · cases h
  · cases h
  · rename_i ask hsource hthere
    dsimp only at h ⊢
    split at h
    · cases h
    · rename_i versions hanswer
      obtain ⟨hrequest, hresponse⟩ :=
        outcomeOf_eq h (by simp) (fun other heq => AlignmentOutcome.aligned.inj heq)
      exact ⟨ask, versions, hsource, hthere, rfl, hanswer, hrequest, hresponse⟩

end Aligner

namespace Barrier

/-! ### Outcome and questions -/

/-- The tree and the handle that the registrations of a build lead to. -/
def outcome (barrier : Barrier) (modules : List Registered) :
    Except Stop (ModuleTree × AlignmentHandle) :=
  match combinedRequest barrier.policy modules with
  | .error stop => .error stop
  | .ok request => barrier.finish modules (barrier.aligner.align request).outcome

/-- The lists that the authority is asked about for the registrations of a build. -/
def questions (barrier : Barrier) (modules : List Registered) : List (List Coordinate) :=
  match combinedRequest barrier.policy modules with
  | .error _ => []
  | .ok request => (barrier.aligner.align request).asked.toList

/-- The tree after publishing: the new one if all went well. -/
def treeAfter (barrier : Barrier) (modules : List Registered) : ModuleTree :=
  match barrier.outcome modules with
  | .error _ => barrier.tree
  | .ok (tree, _) => tree

theorem publish_eq (barrier : Barrier) (modules : List Registered) :
    barrier.publish modules =
      ({ barrier with
          asked := barrier.asked ++ barrier.questions modules
          tree := barrier.treeAfter modules },
        (barrier.outcome modules).map Prod.snd) := by
  cases hrequest : combinedRequest barrier.policy modules with
  | error stop => simp [publish, questions, treeAfter, outcome, hrequest, Except.map]
  | ok request =>
    cases hfinish : barrier.finish modules (barrier.aligner.align request).outcome with
    | error stop =>
      simp [publish, questions, treeAfter, outcome, hrequest, hfinish, Except.map]
    | ok published =>
      simp [publish, questions, treeAfter, outcome, hrequest, hfinish, Except.map]

theorem treeAfter_of_error {barrier : Barrier} {modules : List Registered} {stop : Stop}
    (h : (barrier.publish modules).2 = .error stop) : barrier.treeAfter modules = barrier.tree := by
  rw [publish_eq] at h
  rw [treeAfter]
  cases houtcome : barrier.outcome modules with
  | error stop => rfl
  | ok published =>
    rw [houtcome] at h
    cases h

/-! ### A successful outcome -/

/-- The coordinates that are pinned because an earlier alignment recorded them. Where the source is
disabled nothing is pinned. -/
def seeds (barrier : Barrier) (modules : List Registered) : List Coordinate :=
  match barrier.aligner.source with
  | .rest => seededCoordinates barrier.recorded modules
  | .disabled => []

/-- The way to a tree and a handle: a request, an answer, the adjusted answer, and the tree that it
was written into. -/
structure Success (barrier : Barrier) (modules : List Registered) (combined : Request)
    (answer adjusted : Response) (tree : ModuleTree) (handle : AlignmentHandle) : Prop where
  request : combinedRequest barrier.policy modules = .ok combined
  answered : Answered barrier.aligner.authority barrier.aligner.source
    (barrier.questions modules) answer.versions
  plain : answer.layers = [] ∧ answer.pinned = []
  change : barrier.aligner.adjusted? (barrier.aligner.restricted combined) answer = some adjusted
  staged : ∃ skipped, barrier.stageResponse modules (barrier.aligner.restricted combined)
    (adjusted.pin (barrier.seeds modules)) skipped = .ok (tree, handle)

/-- Only an alignment that is done leads to a tree. -/
theorem of_finish_eq_ok {barrier : Barrier} {modules : List Registered} {outcome : AlignmentOutcome}
    {tree : ModuleTree} {handle : AlignmentHandle}
    (h : barrier.finish modules outcome = .ok (tree, handle)) :
    (∃ alignment, outcome = .skipped alignment ∧
      barrier.stageResponse modules alignment.request alignment.response true
        = .ok (tree, handle)) ∨
    (∃ alignment, outcome = .aligned alignment ∧
      barrier.stageResponse modules alignment.request (barrier.pinSeeded modules alignment) false
        = .ok (tree, handle)) := by
  have hstaged : ∀ {request response skipped},
      (barrier.stageResponse modules request response skipped).mapError Stop.failed
          = .ok (tree, handle) →
        barrier.stageResponse modules request response skipped = .ok (tree, handle) := by
    intro request response skipped hmapped
    cases hresponse : barrier.stageResponse modules request response skipped with
    | error error =>
      rw [hresponse] at hmapped
      cases hmapped
    | ok published =>
      rw [hresponse] at hmapped
      cases hmapped
      rfl
  cases outcome with
  | failed error => cases h
  | aborted => cases h
  | skipped alignment => exact .inl ⟨alignment, rfl, hstaged h⟩
  | aligned alignment => exact .inr ⟨alignment, rfl, hstaged h⟩

/-- What is the same for every module while a response to the registrations is written. -/
def staging (barrier : Barrier) (modules : List Registered) (response : Response)
    (newVersion : String) : Staging :=
  { policy := barrier.policy
    response
    newVersion
    declaredVersions := modules.map fun entry => (entry.1, entry.2.coordinate.version) }

/-- A tree that a response was written into has been staged, and the handle tells the version of the
build and what is missing. -/
theorem of_stageResponse_eq_ok {barrier : Barrier} {modules : List Registered} {request : Request}
    {response : Response} {skipped : Bool} {tree : ModuleTree} {handle : AlignmentHandle}
    (h : barrier.stageResponse modules request response skipped = .ok (tree, handle)) :
    stage (barrier.staging modules response handle.newProjectVersion) request barrier.tree
        = .ok tree ∧
      handle.nonAligned = (barrier.staging modules response handle.newProjectVersion).nonAligned
        request.modules := by
  obtain ⟨staged, hstage, heq⟩ := of_map_eq_ok h
  cases heq
  exact ⟨hstage, rfl⟩

/-- A tree and a handle come from an answer that was adjusted and written. -/
theorem of_outcome_eq_ok {barrier : Barrier} {modules : List Registered} {tree : ModuleTree}
    {handle : AlignmentHandle} (h : barrier.outcome modules = .ok (tree, handle)) :
    ∃ combined answer adjusted, Success barrier modules combined answer adjusted tree handle := by
  rw [outcome] at h
  cases hrequest : combinedRequest barrier.policy modules with
  | error stop =>
    rw [hrequest] at h
    cases h
  | ok combined =>
    simp only [hrequest] at h
    have hquestions : barrier.questions modules
        = (barrier.aligner.align combined).asked.toList := by
      simp only [questions, hrequest]
    rcases of_finish_eq_ok h with ⟨alignment, halign, hstage⟩ | ⟨alignment, halign, hstage⟩
    · obtain ⟨hsource, hasked, hrestricted, hadjusted⟩ := Aligner.of_align_eq_skipped halign
      refine ⟨combined, .empty, alignment.response, hrequest, ?_, ⟨rfl, rfl⟩, hadjusted, true, ?_⟩
      · rw [hquestions, hasked, hsource]
        exact .disabled
      · have hpin : alignment.response.pin (barrier.seeds modules) = alignment.response := by
          simp only [Response.pin, seeds, hsource, List.append_nil]
        rw [hpin, ← hrestricted]
        exact hstage
    · obtain ⟨ask, versions, hsource, hthere, hasked, hanswer, hrestricted, hadjusted⟩ :=
        Aligner.of_align_eq_aligned halign
      refine ⟨combined, _, alignment.response, hrequest, ?_, ⟨rfl, rfl⟩, hadjusted, false, ?_⟩
      · rw [hquestions, hasked, hsource]
        exact .rest hthere hanswer
      · have hpin : alignment.response.pin (barrier.seeds modules)
            = barrier.pinSeeded modules alignment := by
          simp only [pinSeeded, seeds, hsource]
        rw [hpin, ← hrestricted]
        exact hstage

/-! ### Barriers that align alike -/

/-- Two barriers that differ at most in who has registered and in how far they are. -/
structure Alike (first second : Barrier) : Prop where
  aligner : first.aligner = second.aligner
  policy : first.policy = second.policy
  recorded : first.recorded = second.recorded
  order : first.order = second.order

namespace Alike

variable {first second third : Barrier}

theorem refl (barrier : Barrier) : Alike barrier barrier := ⟨rfl, rfl, rfl, rfl⟩

theorem trans (h : Alike first second) (h' : Alike second third) : Alike first third :=
  ⟨h.aligner.trans h'.aligner, h.policy.trans h'.policy, h.recorded.trans h'.recorded,
    h.order.trans h'.order⟩

end Alike

theorem questions_congr {first second : Barrier} (h : Alike first second)
    (modules : List Registered) : first.questions modules = second.questions modules := by
  rw [questions, questions, h.policy, h.aligner]

/-- The outcome is that of any barrier that aligns alike and has the same tree. -/
theorem outcome_congr {first second : Barrier} (h : Alike first second)
    (htree : first.tree = second.tree) (modules : List Registered) :
    first.outcome modules = second.outcome modules := by
  have hstage : ∀ request response skipped,
      first.stageResponse modules request response skipped
        = second.stageResponse modules request response skipped := by
    intro request response skipped
    rw [stageResponse, stageResponse, h.policy, htree]
  have hpin : ∀ alignment, first.pinSeeded modules alignment
      = second.pinSeeded modules alignment := by
    intro alignment
    rw [pinSeeded, pinSeeded, h.recorded]
  rw [outcome, outcome, h.policy, h.aligner]
  cases combinedRequest second.policy modules with
  | error stop => rfl
  | ok request =>
    cases houtcome : (second.aligner.align request).outcome with
    | failed error => simp only [houtcome, finish]
    | aborted => simp only [houtcome, finish]
    | skipped alignment => simp only [houtcome, finish, hstage]
    | aligned alignment => simp only [houtcome, finish, hstage, hpin]

end Barrier

end BuildAlignment
