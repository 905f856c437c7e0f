import BuildAlignment.Proofs.Barrier.Independence
import BuildAlignment.Proofs.Barrier.Parallel
import BuildAlignment.Proofs.Barrier.Replacements

/-!
# Answers that were not asked for

An authority may answer more than it was asked, and it may answer with blanks. Neither makes a
difference: a build only looks at what is given for the coordinates that it asked about.

* `NewVersions.stated?` is the version that an answer gives to a coordinate.
* `Authority.Agree` holds of two authorities that answer the same lists, and give the same versions
  to what is asked.
* `AlignmentError.ToldApart` relates the errors of two runs in which both authorities failed on a
  list that they were asked about.
* `Barrier.finish_congr_of_stated`: an alignment only looks up what it asked for.
* `Barrier.same_of_agree`: two barriers with such authorities answer the same calls in the same way,
  and come to the same handle and the same tree.
* `Barrier.apart_of_failures`: they do not where both authorities fail with reasons of their own.
-/

namespace BuildAlignment

/-- The version that an answer gives to a coordinate. A blank one counts as none. -/
def NewVersions.stated? (coordinate : Coordinate) (versions : NewVersions) : Option String :=
  (versions.find? coordinate).filter fun version => !Text.isBlank version

theorem NewVersions.find?_cons (coordinate known : Coordinate) (version : String)
    (rest : NewVersions) : NewVersions.find? coordinate ((known, version) :: rest)
      = if known = coordinate then some version else NewVersions.find? coordinate rest := rfl

/-- Two authorities that answer the same lists, with the same versions for what is asked. -/
def Authority.Agree (first second : Authority) : Prop :=
  ∀ asked, Matched (fun _ _ => True)
    (fun versions others => ∀ coordinate ∈ asked,
      NewVersions.stated? coordinate versions = NewVersions.stated? coordinate others)
    (first asked) (second asked)

/-- The same error, or what two authorities say when they fail on one of the lists that were
asked. -/
inductive AlignmentError.ToldApart (first second : Authority) (asked : List (List Coordinate)) :
    AlignmentError → AlignmentError → Prop
  | same (error : AlignmentError) : ToldApart first second asked error error
  | unavailable {coordinates : List Coordinate} {error other : AlignmentError}
      (mem : coordinates ∈ asked) (fails : first coordinates = .error error)
      (fails' : second coordinates = .error other) :
      ToldApart first second asked (.authorityUnavailable (Aligner.failureReason error))
        (.authorityUnavailable (Aligner.failureReason other))

open AlignmentError (ToldApart)

/-! ### Responses with other answers -/

theorem Aligner.adjusted?_withVersions (aligner : Aligner) (request : Request)
    (response : Response) (versions : NewVersions) :
    aligner.adjusted? request { response with versions }
      = (aligner.adjusted? request response).map fun adjusted => { adjusted with versions } := by
  rw [adjusted?, adjusted?]
  generalize aligner.adjustments = adjustments
  induction adjustments generalizing response with
  | nil => rfl
  | cons adjustment rest ih =>
    have hfirst : adjustment.applied? request { response with versions }
        = (adjustment.applied? request response).map fun adjusted => { adjusted with versions } := by
      cases adjustment with
      | override rules => rfl
      | pinDynamic => rfl
      | projectVersion settings =>
        rw [Adjustment.applied?, Adjustment.applied?, Option.map_map]
        rfl
    rw [List.foldlM_cons, List.foldlM_cons, hfirst]
    cases adjustment.applied? request response with
    | none => rfl
    | some next => exact ih next

theorem Response.alignedVersion?_withVersions (response : Response) {versions others : NewVersions}
    {coordinate : Coordinate}
    (h : NewVersions.stated? coordinate versions = NewVersions.stated? coordinate others)
    (owner : Coordinate) :
    { response with versions }.alignedVersion? coordinate owner
      = { response with versions := others }.alignedVersion? coordinate owner := by
  have hanswered : { response with versions }.answeredVersion? coordinate
      = { response with versions := others }.answeredVersion? coordinate := h
  rw [alignedVersion?, alignedVersion?, hanswered]
  rfl

/-- Of an answer the response keeps the entries, and what is stated for the build. -/
theorem Response.ofVersions_eq {versions others : NewVersions} {projects : List Coordinate}
    (h : ∀ project ∈ projects,
      NewVersions.stated? project versions = NewVersions.stated? project others) :
    ofVersions others projects = { ofVersions versions projects with versions := others } := by
  rw [ofVersions, ofVersions]
  cases projects with
  | nil => rfl
  | cons project rest =>
    have hproject := h project List.mem_cons_self
    simp only [NewVersions.stated?] at hproject
    simp only [List.head?_cons, Option.bind_some, hproject]

/-- The aligner that asks an authority, where it asks one. -/
def Aligner.withAuthority (aligner : Aligner) (authority : Authority) : Aligner :=
  { aligner with authority := some authority }

theorem Aligner.align_of_disabled {aligner : Aligner} (h : aligner.source = .disabled)
    (authority : Authority) (incoming : Request) :
    (aligner.withAuthority authority).align incoming
      = ⟨none, aligner.outcomeOf .skipped (aligner.restricted incoming) .empty⟩ := by
  have hsource : (aligner.withAuthority authority).source = .disabled := h
  rw [align, hsource]
  rfl

theorem Aligner.align_of_rest {aligner : Aligner} (h : aligner.source = .rest)
    (authority : Authority) (incoming : Request) :
    (aligner.withAuthority authority).align incoming
      = ⟨some (aligner.restricted incoming).authorityCoordinates,
        match authority (aligner.restricted incoming).authorityCoordinates with
        | .error error => .failed (.authorityUnavailable (failureReason error))
        | .ok versions => aligner.outcomeOf .aligned (aligner.restricted incoming)
            (.ofVersions versions (aligner.restricted incoming).projects)⟩ := by
  have hsource : (aligner.withAuthority authority).source = .rest := h
  have hauthority : (aligner.withAuthority authority).authority = some authority := rfl
  have hrestricted : (aligner.withAuthority authority).restricted incoming
      = aligner.restricted incoming := rfl
  rw [align, hsource, hauthority, hrestricted]
  simp only
  cases authority (aligner.restricted incoming).authorityCoordinates with
  | error error => rfl
  | ok versions => rfl

/-- What a module resolves to is among what the authority is asked. -/
theorem Request.mem_authorityCoordinates_of_resolved {request : Request} {entry : ModuleRequest}
    (hentry : entry ∈ request.modules) {resolved : Coordinate} (h : resolved ∈ entry.resolved) :
    resolved ∈ request.authorityCoordinates := by
  rw [authorityCoordinates, dependencyCoordinates, List.mem_eraseDups, List.mem_append,
    List.mem_eraseDups]
  exact .inr (List.mem_flatMap.2 ⟨entry, hentry, h⟩)

namespace Barrier

/-- Responses that give the same versions are written in the same way. -/
theorem stageResponse_congr (barrier : Barrier) (modules : List Registered) {request : Request}
    {response other : Response}
    (hversions : ∀ entry ∈ request.modules, ∀ resolved ∈ entry.resolved,
      response.alignedVersion? resolved entry.owner = other.alignedVersion? resolved entry.owner)
    (hnew : response.newProjectVersion = other.newProjectVersion) (skipped : Bool) :
    barrier.stageResponse modules request response skipped
      = barrier.stageResponse modules request other skipped := by
  have hsame : (barrier.staging modules response
        (other.newProjectVersion.getD request.projectVersion)).SameVersions
      (barrier.staging modules other (other.newProjectVersion.getD request.projectVersion)) :=
    ⟨rfl, rfl, rfl⟩
  have hagrees : ∀ entry ∈ request.modules, (barrier.staging modules response
        (other.newProjectVersion.getD request.projectVersion)).Agrees
      (barrier.staging modules other (other.newProjectVersion.getD request.projectVersion)) entry :=
    hversions
  have hmissing : (barrier.staging modules response
        (other.newProjectVersion.getD request.projectVersion)).nonAligned request.modules
      = (barrier.staging modules other
        (other.newProjectVersion.getD request.projectVersion)).nonAligned request.modules := by
    rw [Staging.nonAligned, Staging.nonAligned, List.map_congr_left]
    intro entry hentry
    rw [(hagrees entry hentry).missing_eq]
  have hstage := hsame.stage_congr hagrees barrier.tree
  rw [staging, staging] at hmissing hstage
  rw [stageResponse, stageResponse, hnew, hstage, hmissing]

/-- Answers that state the same for what was asked come to the same. -/
theorem finish_congr_of_stated (barrier : Barrier) (aligner : Aligner) (modules : List Registered)
    {request : Request} {versions others : NewVersions}
    (hstated : ∀ coordinate ∈ request.authorityCoordinates,
      NewVersions.stated? coordinate versions = NewVersions.stated? coordinate others) :
    barrier.finish modules
        (aligner.outcomeOf .aligned request (.ofVersions versions request.projects))
      = barrier.finish modules
        (aligner.outcomeOf .aligned request (.ofVersions others request.projects)) := by
  have hprojects := Response.ofVersions_eq fun project hproject =>
    hstated project (Request.mem_authorityCoordinates_of_project hproject)
  have hboth : aligner.adjusted? request (.ofVersions others request.projects)
      = (aligner.adjusted? request (.ofVersions versions request.projects)).map
          fun adjusted => { adjusted with versions := others } := by
    rw [hprojects, Aligner.adjusted?_withVersions]
  rw [Aligner.outcomeOf, Aligner.outcomeOf, hboth]
  cases hadjusted : aligner.adjusted? request (.ofVersions versions request.projects) with
  | none => rfl
  | some adjusted =>
    have hkept : adjusted.versions = versions := (Response.adjusted_of_foldlM hadjusted).versions
    have hversions : ∀ entry ∈ request.modules, ∀ resolved ∈ entry.resolved,
        (adjusted.pin (seededCoordinates barrier.recorded modules)).alignedVersion? resolved
            entry.owner
          = (({ adjusted with versions := others } : Response).pin
              (seededCoordinates barrier.recorded modules)).alignedVersion? resolved
                entry.owner := by
      intro entry hentry resolved hresolved
      have hsame := hstated resolved
        (Request.mem_authorityCoordinates_of_resolved hentry hresolved)
      rw [← hkept] at hsame
      exact Response.alignedVersion?_withVersions
        (adjusted.pin (seededCoordinates barrier.recorded modules)) hsame entry.owner
    simp only [Option.map_some, finish, pinSeeded,
      stageResponse_congr barrier modules hversions rfl false]

/-! ### Two authorities -/

variable {first second : Authority}

/-- Runs whose authorities differ only in what they were not asked and in how they fail. -/
def unaskedLikeness (first second : Authority) : Likeness where
  errors := ToldApart first second
  results := fun _ made met => made = met
  refl := fun _ => .same
  restate := by
    intro asked error other h
    cases h with
    | same => exact .same _
    | unavailable mem fails fails' => exact .unavailable mem fails fails'
  mono := by
    intro asked more error other hsubset h
    cases h with
    | same => exact .same _
    | unavailable mem fails fails' => exact .unavailable (hsubset mem) fails fails'
  outline := by
    rintro modules made _ rfl
    exact .refl _

/-- Authorities that agree lead a request to the same tree and the same handle, or both fail. -/
theorem matched_finish (h : first.Agree second) (barrier : Barrier) (aligner : Aligner)
    (modules : List Registered) (incoming : Request) :
    Matched (Stop.Matched (ToldApart first second
        ((aligner.withAuthority first).align incoming).asked.toList)) Eq
      (barrier.finish modules ((aligner.withAuthority first).align incoming).outcome)
      (barrier.finish modules ((aligner.withAuthority second).align incoming).outcome) := by
  have hrefl : ∀ asked (result : Except Stop (ModuleTree × AlignmentHandle)),
      Matched (Stop.Matched (ToldApart first second asked)) Eq result result := by
    intro asked result
    cases result with
    | ok made => exact .ok rfl
    | error stop => exact .error (.refl .same stop)
  cases hsource : aligner.source with
  | disabled =>
    rw [Aligner.align_of_disabled hsource, Aligner.align_of_disabled hsource]
    exact hrefl _ _
  | rest =>
    rw [Aligner.align_of_rest hsource, Aligner.align_of_rest hsource]
    generalize aligner.restricted incoming = request
    have hagree := h request.authorityCoordinates
    generalize hfirst : first request.authorityCoordinates = given,
      hsecond : second request.authorityCoordinates = met at hagree
    cases hagree with
    | error =>
      exact .error (Stop.Matched.failed (.unavailable (List.mem_singleton_self _) hfirst hsecond))
    | ok hstated =>
      simp only [finish_congr_of_stated barrier aligner modules hstated]
      exact hrefl _ _

/-- Whatever registrations are collected, authorities that agree lead to the same outcome, or fail
both. -/
theorem likens_of_agree (h : first.Agree second) {barrier : Barrier} {aligner : Aligner}
    (hbarrier : barrier.aligner = aligner.withAuthority first) :
    barrier.Likens (unaskedLikeness first second) (aligner.withAuthority second) := by
  have hpolicy : (barrier.withAligner (aligner.withAuthority second)).policy
      = barrier.policy := rfl
  have haligner : (barrier.withAligner (aligner.withAuthority second)).aligner
      = aligner.withAuthority second := rfl
  constructor
  · intro modules
    rw [Likeness.Outcomes, questions, outcome, outcome, hpolicy, haligner, hbarrier]
    cases combinedRequest barrier.policy modules with
    | error stop => exact .error (.refl (fun error => .same error) stop)
    | ok combined => exact matched_finish h barrier aligner modules combined
  · intro modules
    rw [questions, questions, hpolicy, haligner, hbarrier]
    cases combinedRequest barrier.policy modules with
    | error stop => rfl
    | ok combined =>
      cases hsource : aligner.source with
      | disabled =>
        simp only [Aligner.align_of_disabled hsource]
      | rest => simp only [Aligner.align_of_rest hsource]

/-! ### The same calls -/

/-- Two sequences of calls that come to the same, but for what the authorities say when both fail on
a list that they are asked about. -/
structure SameUnlessFailed (first second : Authority)
    (run other : Barrier × List (Except Stop RegistrationStatus)) : Prop where
  asked : run.1.asked = other.1.asked
  answers : List.Forall₂ (Matched (Stop.Matched (ToldApart first second run.1.asked)) Eq)
    run.2 other.2
  handle : Matched (ToldApart first second run.1.asked) Eq run.1.finishedHandle
    other.1.finishedHandle
  model : Matched (ToldApart first second run.1.asked) Eq run.1.finishedModel other.1.finishedModel

theorem sameUnlessFailed_of_parallel {run other : Barrier × List (Except Stop RegistrationStatus)}
    (h : Parallel (unaskedLikeness first second) run.1 other.1)
    (hanswers : List.Forall₂ ((unaskedLikeness first second).Answers run.1.asked) run.2 other.2) :
    SameUnlessFailed first second run other := by
  have hhandle := h.finishedHandle
  refine ⟨h.asked_eq, hanswers.imp ?_, hhandle.imp_values ?_, ?_⟩
  · intro answer met hlike
    refine hlike.imp_values ?_
    rintro _ _ (remaining | hresults)
    · rfl
    · exact congrArg RegistrationStatus.complete (Prod.mk.inj hresults).2
  · exact fun _ _ hresults => (Prod.mk.inj hresults).2
  · rw [finishedModel, finishedModel]
    exact hhandle.map fun _ _ hresults => (Prod.mk.inj hresults).1

/-- Where the first authority does not fail, neither run tells of a failure. -/
theorem eq_of_toldApart {asked : List (List Coordinate)}
    (hanswered : ∀ coordinates ∈ asked, ∃ versions, first coordinates = .ok versions)
    {error other : AlignmentError} (h : ToldApart first second asked error other) :
    error = other := by
  cases h with
  | same => rfl
  | unavailable mem fails =>
    obtain ⟨versions, hversions⟩ := hanswered _ mem
    rw [hversions] at fails
    cases fails

/-- Whatever calls come, it makes no difference what an authority answers to coordinates that it was
not asked about, nor whether it gives blanks or nothing. Only where it fails its reason is told. -/
theorem same_of_agree {tree : ModuleTree} {aligner : Aligner} {policy : BarrierPolicy}
    {fresh other : Barrier} (h : first.Agree second)
    (made : Barrier.new tree (aligner.withAuthority first) policy = .ok fresh)
    (made' : Barrier.new tree (aligner.withAuthority second) policy = .ok other)
    (previous : Option ModuleTree) (registrations : List Registration) :
    SameUnlessFailed first second ((fresh.seededWith previous).registerAll registrations)
        ((other.seededWith previous).registerAll registrations) ∧
      ((∀ asked ∈ ((fresh.seededWith previous).registerAll registrations).1.asked,
          ∃ versions, first asked = .ok versions) →
        ((fresh.seededWith previous).registerAll registrations).2
            = ((other.seededWith previous).registerAll registrations).2 ∧
          ((fresh.seededWith previous).registerAll registrations).1.finishedHandle
            = ((other.seededWith previous).registerAll registrations).1.finishedHandle ∧
          ((fresh.seededWith previous).registerAll registrations).1.finishedModel
            = ((other.seededWith previous).registerAll registrations).1.finishedModel) := by
  have opened := opened_seededWith made previous
  have haligner : (fresh.seededWith previous).aligner = aligner.withAuthority first := by
    rw [opened.eq]
  have hphase : (fresh.seededWith previous).phase = .collecting := by rw [opened.eq]
  rw [seededWith_withAligner made made' previous]
  obtain ⟨hparallel, hanswers⟩ := (Parallel.running (.inl hphase)
    (likens_of_agree h haligner)).registerAll registrations
  have hsame := sameUnlessFailed_of_parallel hparallel hanswers
  refine ⟨hsame, fun hanswered => ⟨?_, ?_, ?_⟩⟩
  · rw [← List.forall₂_eq_eq_eq]
    refine hsame.answers.imp ?_
    intro answer met hmatched
    exact hmatched.eq fun _ _ hstops => hstops.eq fun _ _ => eq_of_toldApart hanswered
  · exact hsame.handle.eq fun _ _ => eq_of_toldApart hanswered
  · exact hsame.model.eq fun _ _ => eq_of_toldApart hanswered

end Barrier

namespace SmallBuild

def asking : Aligner := { authority := none, source := .rest, adjustments := [.pinDynamic] }

def barrierWith (authority : Authority) : Barrier :=
  { aligner := asking.withAuthority authority
    policy := {}, order := [":", ":core"], remaining := [":", ":core"], tree }

def talkative : Authority := fun asked =>
  .ok <| (⟨"org.lib", "http", "1.0"⟩, "2.0") ::
    (if asked.contains ⟨"org.lib", "text", "2.0"⟩ then [] else [(⟨"org.lib", "text", "2.0"⟩, "9.0")])
    ++ asked.map fun coordinate => (coordinate, " ")

def refusing (reason : String) : Authority := fun _ => .error (.authorityUnavailable reason)

theorem stated?_blanks (asked : List Coordinate) (coordinate : Coordinate) :
    NewVersions.stated? coordinate (asked.map fun known => (known, " ")) = none := by
  induction asked with
  | nil => rfl
  | cons known rest ih =>
    rw [NewVersions.stated?, List.map_cons, NewVersions.find?_cons]
    split
    · decide
    · exact ih

theorem agree_talkative : answers.Agree talkative := by
  intro asked
  refine .ok ?_
  intro coordinate hasked
  have hblanks := stated?_blanks asked coordinate
  rw [NewVersions.stated?] at hblanks
  rw [NewVersions.stated?, NewVersions.stated?, List.cons_append, NewVersions.find?_cons,
    NewVersions.find?_cons]
  by_cases hknown : (⟨"org.lib", "http", "1.0"⟩ : Coordinate) = coordinate
  · rw [if_pos hknown, if_pos hknown]
  · rw [if_neg hknown, if_neg hknown]
    split
    · exact hblanks.symm
    · rename_i hunasked
      have hother : (⟨"org.lib", "text", "2.0"⟩ : Coordinate) ≠ coordinate := by
        rintro rfl
        exact hunasked (List.contains_iff_mem.2 hasked)
      rw [List.singleton_append, NewVersions.find?_cons, if_neg hother, hblanks]
      rfl

end SmallBuild

namespace Barrier

open SmallBuild (answers asking barrierWith talkative refusing bothModules)

/-- One dependency of the build is answered, and a blank for another one counts as no answer. -/
theorem same_of_talkative :
    answers.Agree talkative ∧
      ((barrierWith answers).registerAll bothModules).1.asked.length = 1 ∧
      ((barrierWith answers).registerAll bothModules).2
        = ((barrierWith talkative).registerAll bothModules).2 ∧
      ((barrierWith answers).registerAll bothModules).1.finishedModel
        = ((barrierWith talkative).registerAll bothModules).1.finishedModel := by
  have made : ∀ authority, Barrier.new SmallBuild.tree (asking.withAuthority authority) {}
      = .ok (barrierWith authority) := fun _ => rfl
  obtain ⟨-, hsame⟩ :=
    same_of_agree SmallBuild.agree_talkative (made answers) (made talkative) none bothModules
  obtain ⟨hanswers, -, hmodel⟩ := hsame fun _ _ => ⟨_, rfl⟩
  exact ⟨SmallBuild.agree_talkative, by decide +kernel, hanswers, hmodel⟩

/-- Two authorities that both refuse to answer agree, and their builds fail with different
statuses. -/
theorem apart_of_failures :
    (refusing "offline").Agree (refusing "busy") ∧
      (∀ authority, Barrier.new SmallBuild.tree (asking.withAuthority authority) {}
        = .ok (barrierWith authority)) ∧
      ((barrierWith (refusing "offline")).registerAll bothModules).2
        = [.ok (.pending 1), .error (.failed (.authorityUnavailable "offline"))] ∧
      ((barrierWith (refusing "busy")).registerAll bothModules).2
        = [.ok (.pending 1), .error (.failed (.authorityUnavailable "busy"))] ∧
      ((barrierWith (refusing "offline")).registerAll bothModules).2
        ≠ ((barrierWith (refusing "busy")).registerAll bothModules).2 := by
  have hoffline : ((barrierWith (refusing "offline")).registerAll bothModules).2
      = [.ok (.pending 1), .error (.failed (.authorityUnavailable "offline"))] := by decide +kernel
  have hbusy : ((barrierWith (refusing "busy")).registerAll bothModules).2
      = [.ok (.pending 1), .error (.failed (.authorityUnavailable "busy"))] := by decide +kernel
  refine ⟨fun _ => .error trivial, fun _ => rfl, hoffline, hbusy, ?_⟩
  rw [hoffline, hbusy]
  decide

end Barrier

end BuildAlignment
