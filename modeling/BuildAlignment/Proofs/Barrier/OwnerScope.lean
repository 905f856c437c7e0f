import BuildAlignment.Proofs.Barrier.DisabledSeeding
import BuildAlignment.Proofs.Barrier.Parallel
import Mathlib.Data.List.Find

/-!
# Overrides for other modules

The owner of a rule decides for which modules the rule counts. Rules for other modules make no
difference to a module, whatever layers they stand in and whatever stands before them.

* `Adjustment.seenBy?` and `Aligner.seenBy` leave out the rules that do not apply to an artifact.
* `Response.alignedVersion?_seenBy`: a module of that artifact gets the same versions without them.
* `Aligner.seenBy_adjusted?`: leaving them out before the adjustments is leaving them out afterwards.
* `Staging.sameAt_stageModules`: what is written for a module depends on its own versions.
* `Barrier.same_for_owner`: barriers whose aligners differ in the rules for other modules ask the
  same, and come to the same version of the build and to the same for the module.
* `Barrier.apart_of_shared_path`: they do not where the path of another module leads to the module.
-/

namespace BuildAlignment

open ModuleTree (Addressed SameModules SameOutline)

/-- Results that fail alike or succeed with related values. -/
theorem Matched.agreeUpTo {ε α : Type} {errors : ε → ε → Prop} {values related : α → α → Prop}
    (herrors : ∀ first second, errors first second → first = second)
    (hvalues : ∀ first second, values first second → related first second)
    {first second : Except ε α} (h : Matched errors values first second) :
    AgreeUpTo related first second := by
  cases h with
  | ok holds => exact .ok (hvalues _ _ holds)
  | @error error other holds =>
    rw [herrors _ _ holds]
    exact .error other

/-! ### The rules that count for an artifact -/

/-- The rules of a layer that apply to an artifact. -/
def OverrideLayer.seenBy (ref : ArtifactRef) (layer : OverrideLayer) : OverrideLayer :=
  layer.filter fun entry => entry.1.appliesTo ref

/-- The layer, if any of its rules applies to an artifact. -/
def OverrideLayer.seenBy? (ref : ArtifactRef) (layer : OverrideLayer) : Option OverrideLayer :=
  if layer.seenBy ref = [] then none else some (layer.seenBy ref)

/-- What a change means to an artifact. -/
def Adjustment.seenBy? (ref : ArtifactRef) : Adjustment → Option Adjustment
  | override rules => (OverrideLayer.seenBy? ref rules).map override
  | projectVersion settings => some (projectVersion settings)
  | pinDynamic => some pinDynamic

/-- The aligner without the rules that do not apply to an artifact. -/
def Aligner.seenBy (ref : ArtifactRef) (aligner : Aligner) : Aligner :=
  { aligner with adjustments := aligner.adjustments.filterMap (Adjustment.seenBy? ref) }

/-- The response without the rules that do not apply to an artifact. -/
def Response.seenBy (ref : ArtifactRef) (response : Response) : Response :=
  { response with layers := response.layers.filterMap (OverrideLayer.seenBy? ref) }

theorem OverrideLayer.version?_seenBy (layer : OverrideLayer) (coordinate owner : Coordinate) :
    OverrideLayer.version? coordinate owner (layer.seenBy owner.ref)
      = layer.version? coordinate owner := by
  rw [version?, version?, seenBy, List.find?_filter]
  refine congrArg (Option.map Prod.snd) (List.find?_congr ?_)
  intro entry _
  rw [Rule.covers, Bool.decide_and, Bool.decide_eq_true, Bool.decide_eq_true]
  cases entry.1.appliesTo owner.ref <;> simp

theorem OverrideLayer.version?_of_seenBy? (layer : OverrideLayer) (coordinate owner : Coordinate) :
    ((layer.seenBy? owner.ref).bind fun seen => seen.version? coordinate owner)
      = layer.version? coordinate owner := by
  rw [seenBy?]
  split
  · rename_i hnone
    rw [← layer.version?_seenBy, hnone]
    rfl
  · exact layer.version?_seenBy coordinate owner

theorem Response.overriddenVersion?_seenBy (response : Response) (coordinate owner : Coordinate) :
    (response.seenBy owner.ref).overriddenVersion? coordinate owner
      = response.overriddenVersion? coordinate owner := by
  rw [overriddenVersion?, overriddenVersion?, seenBy, ← List.filterMap_reverse,
    ← List.head?_filterMap, ← List.head?_filterMap, List.filterMap_filterMap]
  simp only [OverrideLayer.version?_of_seenBy?]

theorem Response.alignedVersion?_seenBy (response : Response) (coordinate owner : Coordinate) :
    (response.seenBy owner.ref).alignedVersion? coordinate owner
      = response.alignedVersion? coordinate owner := by
  rw [alignedVersion?, alignedVersion?, overriddenVersion?_seenBy]
  rfl

/-- A rule that is left out changes nothing else. -/
theorem Adjustment.seenBy_applied? (adjustment : Adjustment) (ref : ArtifactRef)
    (request : Request) (response : Response) :
    (adjustment.applied? request response).map (Response.seenBy ref)
      = match adjustment.seenBy? ref with
        | some seen => seen.applied? request (response.seenBy ref)
        | none => some (response.seenBy ref) := by
  cases adjustment with
  | pinDynamic => rfl
  | projectVersion settings =>
    simp only [seenBy?, applied?, Option.map_map]
    rfl
  | override rules =>
    simp only [seenBy?, applied?, Option.map_some, Response.seenBy, Response.pushLayer,
      List.filterMap_append]
    cases hseen : OverrideLayer.seenBy? ref rules with
    | none => simp [hseen]
    | some seen => simp [hseen]

/-- Rules for other modules can be left out before the adjustments or after them. -/
theorem Aligner.seenBy_adjusted? (aligner : Aligner) (ref : ArtifactRef) (request : Request)
    (response : Response) :
    (aligner.adjusted? request response).map (Response.seenBy ref)
      = (aligner.seenBy ref).adjusted? request (response.seenBy ref) := by
  rw [adjusted?, adjusted?, seenBy]
  generalize aligner.adjustments = adjustments
  induction adjustments generalizing response with
  | nil => rfl
  | cons adjustment rest ih =>
    have hfirst := adjustment.seenBy_applied? ref request response
    rw [List.foldlM_cons, List.filterMap_cons]
    cases happlied : adjustment.applied? request response with
    | none =>
      rw [happlied, Option.map_none] at hfirst
      cases hseen : adjustment.seenBy? ref with
      | none =>
        rw [hseen] at hfirst
        cases hfirst
      | some seen =>
        rw [hseen] at hfirst
        simp only [List.foldlM_cons, ← hfirst]
        rfl
    | some next =>
      rw [happlied, Option.map_some] at hfirst
      cases hseen : adjustment.seenBy? ref with
      | none =>
        rw [hseen] at hfirst
        simp only at hfirst ⊢
        rw [← Option.some.inj hfirst]
        exact ih next
      | some seen =>
        rw [hseen] at hfirst
        simp only [List.foldlM_cons, ← hfirst]
        exact ih next

/-! ### One module of a tree -/

namespace ModuleTree

/-- The same modules, and the same is kept for the one at some keys. -/
structure SameAt (keys : List String) (first second : ModuleTree) : Prop where
  modules : SameModules first second
  infoAt : first.infoAt? keys = second.infoAt? keys

/-- A change that treats replacements alike, and one module in the same way, keeps that module the
same. -/
theorem SameAt.change {keys : List String} {first second : ModuleTree} (h : SameAt keys first second)
    {query : String} {step other : ModuleInfo → Except AlignmentError ModuleInfo}
    (hstep : ∀ info kept, info.unaligned = kept.unaligned →
      AgreeUpTo (fun info kept => info.unaligned = kept.unaligned) (step info) (other kept))
    (hsame : first.keysOf query = .ok keys → step = other) :
    AgreeUpTo (SameAt keys) (first.change query step) (second.change query other) := by
  have hmodules := h.modules.change query hstep
  generalize hfirst : first.change query step = left,
    hsecond : second.change query other = right at hmodules ⊢
  cases hmodules with
  | error error => exact .error error
  | ok hnext =>
    refine .ok ⟨hnext, ?_⟩
    obtain ⟨meant, old, info, hmeant, hold, hinfo, rfl⟩ := of_change_eq_ok hfirst
    obtain ⟨meant', old', info', hmeant', hold', hinfo', rfl⟩ := of_change_eq_ok hsecond
    rw [← h.modules.outline.keysOf_eq, hmeant] at hmeant'
    cases hmeant'
    rw [infoAt?_updateAt, infoAt?_updateAt, h.infoAt]
    split
    · rename_i hkeys
      subst hkeys
      rw [h.infoAt, hold'] at hold
      cases hold
      rw [hsame hmeant, hinfo'] at hinfo
      cases hinfo
      rfl
    · rfl

/-- A module is found as it is in the other tree, if the same is kept where the query leads. -/
theorem SameModules.find_eq {first second : ModuleTree} {query : String}
    (hmodules : SameModules first second)
    (h : ∀ keys, first.keysOf query = .ok keys → first.infoAt? keys = second.infoAt? keys) :
    (first.find query).map info = (second.find query).map info := by
  rw [ModuleTree.find, ModuleTree.find, ← hmodules.outline.keysOf_eq]
  cases hkeys : first.keysOf query with
  | error error => rfl
  | ok keys =>
    have hinfo := h keys hkeys
    rw [infoAt?, infoAt?] at hinfo
    simp only
    cases hfirst : first.locate? keys with
    | none =>
      rw [hfirst, Option.map_none] at hinfo
      rw [Option.map_eq_none_iff.1 hinfo.symm, hmodules.outline.notFound_eq]
    | some found =>
      rw [hfirst, Option.map_some] at hinfo
      obtain ⟨met, hmet, hsame⟩ := Option.map_eq_some_iff.1 hinfo.symm
      rw [hmet]
      exact congrArg Except.ok hsame.symm

end ModuleTree

open ModuleTree (SameAt)

namespace Staging

variable {staging other : Staging}

/-- Filling in a module keeps what there is and how it is called. -/
theorem outline_of_stageModule_eq_ok {request : ModuleRequest} {before next : ModuleTree}
    (haddressed : Addressed before) (h : staging.stageModule before request = .ok next) :
    SameOutline next before ∧ Addressed next := by
  obtain ⟨keys, old, info, -, hold, hinfo, rfl⟩ := ModuleTree.of_change_eq_ok h
  have hname : info.name = old.name := by
    rw [of_stageInfo_eq_ok hinfo]
    rfl
  exact ⟨.updateAt_const haddressed hold hname, haddressed.updateAt _ keys⟩

/-- What is written for a module depends on the versions that it gets, whatever the other modules
get. -/
theorem SameVersions.sameAt_stageModules (h : SameVersions staging other) {tree : ModuleTree}
    {keys : List String} {requests : List ModuleRequest}
    (agrees : ∀ request ∈ requests, tree.keysOf request.path = .ok keys →
      staging.Agrees other request)
    {first second : ModuleTree} (haddressed : Addressed first) (houtline : SameOutline first tree)
    (hsame : SameAt keys first second) :
    AgreeUpTo (SameAt keys) (staging.stageModules requests first)
      (other.stageModules requests second) := by
  induction requests generalizing first second with
  | nil => exact .ok hsame
  | cons request rest ih =>
    have hchanged : AgreeUpTo (SameAt keys) (staging.stageModule first request)
        (other.stageModule second request) := by
      refine hsame.change (fun _ _ hinfo => h.agree_stageInfo rfl hinfo) ?_
      intro hkeys
      rw [houtline.keysOf_eq] at hkeys
      exact funext (h.stageInfo_congr (agrees request List.mem_cons_self hkeys))
    rw [stageModules, stageModules, List.foldlM_cons, List.foldlM_cons]
    generalize hfirst : staging.stageModule first request = left,
      other.stageModule second request = right at hchanged
    cases hchanged with
    | error error => exact .error error
    | ok hnext =>
      obtain ⟨hnamed, hlisted⟩ := outline_of_stageModule_eq_ok haddressed hfirst
      exact ih (fun later hlater => agrees later (List.mem_cons_of_mem _ hlater)) hlisted
        (hnamed.trans houtline) hnext

theorem outline_of_stageModules_eq_ok {requests : List ModuleRequest} {tree after : ModuleTree}
    (haddressed : Addressed tree) (h : staging.stageModules requests tree = .ok after) :
    SameOutline after tree := by
  induction requests generalizing tree with
  | nil =>
    cases h
    exact .refl _
  | cons request rest ih =>
    rw [stageModules, List.foldlM_cons] at h
    cases hnext : staging.stageModule tree request with
    | error error =>
      rw [hnext] at h
      cases h
    | ok next =>
      rw [hnext] at h
      obtain ⟨hnamed, hlisted⟩ := outline_of_stageModule_eq_ok haddressed hnext
      exact (ih hlisted h).trans hnamed

theorem outline_of_stage_eq_ok {request : Request} {tree after : ModuleTree}
    (haddressed : Addressed tree) (h : stage staging request tree = .ok after) :
    SameOutline after tree := by
  rw [stage] at h
  split at h
  · cases h
  · rename_i started hroot
    obtain ⟨group, -, rfl⟩ := of_stageRoot_eq_ok hroot
    have hname : ∀ info : ModuleInfo, (info.asRoot request.projectVersion group).name = info.name :=
      fun _ => rfl
    exact (outline_of_stageModules_eq_ok (haddressed.updateAt _ []) h).trans
      (.updateAt hname [] tree)

/-- The module at some keys is filled in alike in a whole tree. -/
theorem SameVersions.sameAt_stage (h : SameVersions staging other) {request : Request}
    {tree : ModuleTree} (haddressed : Addressed tree) {keys : List String}
    (agrees : ∀ entry ∈ request.modules, tree.keysOf entry.path = .ok keys →
      staging.Agrees other entry) :
    AgreeUpTo (SameAt keys) (stage staging request tree) (stage other request tree) := by
  rw [stage, stage]
  cases hroot : stageRoot request.projectVersion tree with
  | error error => exact .error error
  | ok started =>
    obtain ⟨group, -, rfl⟩ := of_stageRoot_eq_ok hroot
    have hname : ∀ info : ModuleInfo, (info.asRoot request.projectVersion group).name = info.name :=
      fun _ => rfl
    exact h.sameAt_stageModules agrees (haddressed.updateAt _ []) (.updateAt hname [] tree)
      ⟨.refl _, rfl⟩

/-- A module is found as it was, if its versions are the same. -/
theorem SameVersions.find_of_stage_eq_ok (h : SameVersions staging other) {request : Request}
    {tree after met : ModuleTree} (haddressed : Addressed tree) {path : String}
    (agrees : ∀ entry ∈ request.modules, tree.keysOf entry.path = tree.keysOf path →
      staging.Agrees other entry)
    (hafter : stage staging request tree = .ok after) (hmet : stage other request tree = .ok met) :
    (after.find path).map ModuleTree.info = (met.find path).map ModuleTree.info := by
  have hmodules : AgreeUpTo SameModules (stage staging request tree) (stage other request tree) :=
    h.agree_stage rfl rfl tree
  rw [hafter, hmet] at hmodules
  cases hmodules with
  | ok hsame =>
    refine hsame.find_eq ?_
    intro keys hkeys
    rw [(outline_of_stage_eq_ok haddressed hafter).keysOf_eq] at hkeys
    have hat : AgreeUpTo (SameAt keys) (stage staging request tree) (stage other request tree) :=
      h.sameAt_stage haddressed fun entry hentry hmeant =>
        agrees entry hentry (hmeant.trans hkeys.symm)
    rw [hafter, hmet] at hat
    cases hat with
    | ok hfound => exact hfound.infoAt

/-- What a module misses depends on the versions that it gets. -/
theorem nonAligned_find?_congr {requests : List ModuleRequest} {path : String}
    (agrees : ∀ request ∈ requests, request.path = path → staging.Agrees other request) :
    (staging.nonAligned requests).find? path = (other.nonAligned requests).find? path := by
  refine Keyed.find?_ofEntries_congr ?_
  rw [List.filter_filter, List.filter_filter]
  induction requests with
  | nil => rfl
  | cons request rest ih =>
    have hrest := ih fun later hlater => agrees later (List.mem_cons_of_mem _ hlater)
    rw [List.map_cons, List.map_cons, List.filter_cons, List.filter_cons, hrest]
    by_cases hpath : request.path = path
    · rw [(agrees request List.mem_cons_self hpath).missing_eq]
    · simp [hpath]

end Staging

/-! ### Two aligners -/

/-- Two outcomes with the same rules for an artifact. -/
inductive AlignmentOutcome.SeenAlike (ref : ArtifactRef) (request : Request) :
    AlignmentOutcome → AlignmentOutcome → Prop
  | failed (error : AlignmentError) : SeenAlike ref request (.failed error) (.failed error)
  | aborted : SeenAlike ref request .aborted .aborted
  | skipped {response other : Response} (seen : response.seenBy ref = other.seenBy ref) :
      SeenAlike ref request (.skipped ⟨request, response⟩) (.skipped ⟨request, other⟩)
  | aligned {response other : Response} (seen : response.seenBy ref = other.seenBy ref) :
      SeenAlike ref request (.aligned ⟨request, response⟩) (.aligned ⟨request, other⟩)

open AlignmentOutcome (SeenAlike)

namespace Aligner

variable {ref : ArtifactRef} {first second : Aligner}

/-- Aligners with the same rules for an artifact are given up both, or have the same rules for it in
the response. -/
theorem seenAlike_outcomeOf (h : first.seenBy ref = second.seenBy ref) {request : Request}
    (response : Response) {wrap : Alignment → AlignmentOutcome}
    (hwrap : ∀ {response other : Response}, response.seenBy ref = other.seenBy ref →
      SeenAlike ref request (wrap ⟨request, response⟩) (wrap ⟨request, other⟩)) :
    SeenAlike ref request (first.outcomeOf wrap request response)
      (second.outcomeOf wrap request response) := by
  have hadjusted : (first.adjusted? request response).map (Response.seenBy ref)
      = (second.adjusted? request response).map (Response.seenBy ref) := by
    rw [seenBy_adjusted?, seenBy_adjusted?, h]
  rw [outcomeOf, outcomeOf]
  cases hfirst : first.adjusted? request response with
  | none =>
    rw [hfirst, Option.map_none] at hadjusted
    rw [Option.map_eq_none_iff.1 hadjusted.symm]
    exact .aborted
  | some adjusted =>
    rw [hfirst, Option.map_some] at hadjusted
    obtain ⟨met, hmet, hseen⟩ := Option.map_eq_some_iff.1 hadjusted.symm
    rw [hmet]
    exact hwrap hseen.symm

theorem seenAlike_align (h : first.seenBy ref = second.seenBy ref) (incoming : Request) :
    (first.align incoming).asked = (second.align incoming).asked ∧
      SeenAlike ref (first.restricted incoming) (first.align incoming).outcome
        (second.align incoming).outcome := by
  have hsource : first.source = second.source := (congrArg Aligner.source h :)
  have hauthority : first.authority = second.authority := (congrArg Aligner.authority h :)
  have hexclusions : first.exclusions = second.exclusions := (congrArg Aligner.exclusions h :)
  have hrestricted : second.restricted incoming = first.restricted incoming := by
    rw [restricted, restricted, hexclusions]
  rw [align, align, hsource, hauthority, hrestricted]
  cases second.source with
  | disabled => exact ⟨rfl, seenAlike_outcomeOf h _ .skipped⟩
  | rest =>
    cases second.authority with
    | none => exact ⟨rfl, .failed _⟩
    | some authority =>
      simp only
      cases authority (first.restricted incoming).authorityCoordinates with
      | error error => exact ⟨rfl, .failed _⟩
      | ok versions => exact ⟨rfl, seenAlike_outcomeOf h _ .aligned⟩

end Aligner

namespace Barrier

variable {ref : ArtifactRef}

/-- The modules that lead where a path leads are all modules of one artifact. -/
def Owns (tree : ModuleTree) (ref : ArtifactRef) (path : String) (modules : List Registered) :
    Prop :=
  ∀ entry ∈ modules, tree.keysOf entry.1 = tree.keysOf path → entry.2.coordinate.ref = ref

/-- Two trees with their handles that differ at most in what dependencies decide, and not at all for
one module. -/
structure SameForModule (path : String) (made met : ModuleTree × AlignmentHandle) : Prop where
  found : (made.1.find path).map ModuleTree.info = (met.1.find path).map ModuleTree.info
  missing : made.2.nonAligned.find? path = met.2.nonAligned.find? path

/-- Responses with the same rules for an artifact are written in the same way for its module. -/
theorem sameForModule_of_stageResponse {barrier : Barrier} (haddressed : Addressed barrier.tree)
    {modules : List Registered} {request : Request} {response other : Response}
    (hseen : response.seenBy ref = other.seenBy ref) {path : String}
    (howner : ∀ entry ∈ request.modules,
      barrier.tree.keysOf entry.path = barrier.tree.keysOf path → entry.owner.ref = ref)
    {skipped : Bool} {made met : ModuleTree × AlignmentHandle}
    (hmade : barrier.stageResponse modules request response skipped = .ok made)
    (hmet : barrier.stageResponse modules request other skipped = .ok met)
    (hversion : made.2.newProjectVersion = met.2.newProjectVersion) :
    SameForModule path made met := by
  obtain ⟨hstage, hmissing⟩ := of_stageResponse_eq_ok hmade
  obtain ⟨hstage', hmissing'⟩ := of_stageResponse_eq_ok hmet
  rw [hversion] at hstage hmissing
  have hsame : (barrier.staging modules response met.2.newProjectVersion).SameVersions
      (barrier.staging modules other met.2.newProjectVersion) := ⟨rfl, rfl, rfl⟩
  have hagrees : ∀ entry ∈ request.modules,
      barrier.tree.keysOf entry.path = barrier.tree.keysOf path →
        (barrier.staging modules response met.2.newProjectVersion).Agrees
          (barrier.staging modules other met.2.newProjectVersion) entry := by
    intro entry hentry hkeys resolved _
    show response.alignedVersion? resolved entry.owner = other.alignedVersion? resolved entry.owner
    rw [← response.alignedVersion?_seenBy, ← other.alignedVersion?_seenBy,
      howner entry hentry hkeys, hseen]
  refine ⟨hsame.find_of_stage_eq_ok haddressed hagrees hstage hstage', ?_⟩
  rw [hmissing, hmissing']
  refine Staging.nonAligned_find?_congr ?_
  intro entry hentry hpath
  exact hagrees entry hentry (hpath ▸ rfl)

/-- What two runs have in common whose aligners have the same rules for an artifact. -/
def scopedLikeness (tree : ModuleTree) (ref : ArtifactRef) (path : String) : Likeness where
  errors := fun _ => Eq
  results := fun modules made met =>
    SamePublished made met ∧ (Owns tree ref path modules → SameForModule path made met)
  refl := fun _ _ => rfl
  restate := fun h => congrArg AlignmentError.restate h
  mono := fun _ h => h
  outline := fun h => h.1.1.outline

/-- Responses with the same rules for an artifact are written alike. -/
theorem matched_stageResponse {barrier : Barrier} (haddressed : Addressed barrier.tree)
    {modules : List Registered} {request : Request} {response other : Response}
    (hseen : response.seenBy ref = other.seenBy ref)
    (howners : ∀ entry ∈ request.modules, ∃ kept ∈ modules,
      kept.1 = entry.path ∧ kept.2.coordinate = entry.owner)
    (path : String) (skipped : Bool) :
    (scopedLikeness barrier.tree ref path).Outcomes [] modules
      ((barrier.stageResponse modules request response skipped).mapError .failed)
      ((barrier.stageResponse modules request other skipped).mapError .failed) := by
  have hversion : response.buildVersion = other.buildVersion :=
    (congrArg Response.buildVersion hseen :)
  have hagree : AgreeUpTo SamePublished
      (barrier.stageResponse modules request response skipped)
      (barrier.stageResponse modules request other skipped) :=
    agree_stageResponse rfl rfl rfl rfl rfl hversion skipped
  generalize hmade : barrier.stageResponse modules request response skipped = left,
    hmet : barrier.stageResponse modules request other skipped = right at hagree ⊢
  cases hagree with
  | error error => exact .error (.failed rfl)
  | ok hpublished =>
    refine .ok ⟨hpublished, ?_⟩
    intro owns
    refine sameForModule_of_stageResponse haddressed hseen ?_ hmade hmet
      hpublished.2.newProjectVersion
    intro entry hentry hkeys
    obtain ⟨kept, hkept, hpath, howner⟩ := howners entry hentry
    rw [← howner]
    exact owns kept hkept (hpath ▸ hkeys)

/-- Whatever registrations are collected, aligners with the same rules for an artifact lead to the
same for its module. -/
theorem likens_of_seenBy {barrier : Barrier} {first second : Aligner}
    (haddressed : Addressed barrier.tree) (hbarrier : barrier.aligner = first)
    (h : first.seenBy ref = second.seenBy ref) (path : String) :
    barrier.Likens (scopedLikeness barrier.tree ref path) second := by
  have hpolicy : (barrier.withAligner second).policy = barrier.policy := rfl
  have haligner : (barrier.withAligner second).aligner = second := rfl
  constructor
  · intro modules
    rw [Likeness.Outcomes, outcome, outcome, hpolicy, haligner, hbarrier]
    cases hcombined : combinedRequest barrier.policy modules with
    | error stop => exact .error (.refl (fun _ => rfl) stop)
    | ok combined =>
      have howners : ∀ entry ∈ (first.restricted combined).modules, ∃ kept ∈ modules,
          kept.1 = entry.path ∧ kept.2.coordinate = entry.owner := by
        intro entry hentry
        obtain ⟨request, hrequest, hpath, howner, -⟩ := Aligner.mem_of_mem_restricted hentry
        rw [modules_of_combinedRequest hcombined] at hrequest
        obtain ⟨kept, hkept, rfl⟩ := List.mem_map.1 hrequest
        exact ⟨kept, hkept, hpath, howner⟩
      obtain ⟨-, halike⟩ := Aligner.seenAlike_align h combined
      simp only
      generalize (first.align combined).outcome = made, (second.align combined).outcome = met
        at halike
      cases halike with
      | failed error => exact .error (.failed rfl)
      | aborted => exact .error .aborted
      | skipped hseen => exact matched_stageResponse haddressed hseen howners path true
      | @aligned response other hseen =>
        have hpinned : (response.pin (seededCoordinates barrier.recorded modules)).seenBy ref
            = (other.pin (seededCoordinates barrier.recorded modules)).seenBy ref :=
          congrArg (Response.pin · (seededCoordinates barrier.recorded modules)) hseen
        exact matched_stageResponse haddressed hpinned howners path false
  · intro modules
    rw [questions, questions, hpolicy, haligner, hbarrier]
    cases combinedRequest barrier.policy modules with
    | error stop => rfl
    | ok combined => simp only [(Aligner.seenAlike_align h combined).1]

/-! ### The same calls -/

/-- Two sequences of calls that ask the same and come to the same but for replacements and what is
not aligned. For one module these are the same too. -/
structure SameForOwner (path : String)
    (run other : Barrier × List (Except Stop RegistrationStatus)) : Prop where
  asked : run.1.asked = other.1.asked
  same : SameRun run other
  missing : AgreeUpTo (fun handle met => handle.nonAligned.find? path = met.nonAligned.find? path)
    run.1.finishedHandle other.1.finishedHandle
  found : AgreeUpTo
    (fun made met => (made.find path).map ModuleTree.info = (met.find path).map ModuleTree.info)
    run.1.finishedModel other.1.finishedModel

theorem sameForOwner_of_parallel {tree : ModuleTree} {path : String}
    {run other : Barrier × List (Except Stop RegistrationStatus)}
    (h : Parallel (scopedLikeness tree ref path) run.1 other.1)
    (hanswers : List.Forall₂ ((scopedLikeness tree ref path).Answers run.1.asked) run.2 other.2)
    (owns : Owns tree ref path run.1.inOrder) : SameForOwner path run other := by
  have hhandle := h.finishedHandle
  have hmodel := hhandle.agreeUpTo (fun _ _ => id) fun _ _ => id
  refine ⟨h.asked_eq, ⟨hanswers.imp ?_, hhandle.agreeUpTo (fun _ _ => id) ?_, ?_⟩,
    hhandle.agreeUpTo (fun _ _ => id) ?_, ?_⟩
  · intro answer met hlike
    refine Matched.agreeUpTo (fun _ _ hstops => hstops.eq fun _ _ => id) ?_ hlike
    rintro _ _ (remaining | hresults)
    · exact .pending remaining
    · exact .complete hresults.1.2
  · exact fun _ _ hresults => hresults.1.2
  · rw [finishedModel, finishedModel]
    exact hmodel.map fun _ _ hresults => hresults.1.1
  · exact fun _ _ hresults => (hresults.2 owns).missing
  · rw [finishedModel, finishedModel]
    exact hmodel.map fun _ _ hresults => (hresults.2 owns).found

/-- A module that no other path leads to owns what it has registered. -/
theorem owns_registerAll {tree : ModuleTree} {barrier : Barrier}
    (horder : barrier.order = tree.paths) {path : String}
    (hself : ∀ query ∈ tree.paths, tree.keysOf query = tree.keysOf path → query = path)
    (registrations : List Registration)
    (howner : ∀ registration ∈ (barrier.registerAll registrations).1.registration? path,
      registration.coordinate.ref = ref) :
    Owns tree ref path (barrier.registerAll registrations).1.inOrder := by
  intro entry hentry hkeys
  rw [inOrder] at hentry
  obtain ⟨query, hquery, hfound⟩ := List.mem_filterMap.1 hentry
  obtain ⟨registration, hregistration, rfl⟩ := Option.map_eq_some_iff.1 hfound
  rw [List.mem_eraseDups, (alike_registerAll barrier registrations).order, horder] at hquery
  rw [hself query hquery hkeys] at hregistration
  exact howner registration hregistration

/-- Whatever calls come, rules that do not apply to the artifact of a module make no difference to
what is asked, to the version of the build and to the module, if no other path leads to it. -/
theorem same_for_owner {tree : ModuleTree} (addressed : Addressed tree) {first second : Aligner}
    (hscoped : first.seenBy ref = second.seenBy ref) {policy : BarrierPolicy}
    {fresh other : Barrier} (made : Barrier.new tree first policy = .ok fresh)
    (made' : Barrier.new tree second policy = .ok other) (previous : Option ModuleTree)
    (registrations : List Registration) {path : String}
    (hself : ∀ query ∈ tree.paths, tree.keysOf query = tree.keysOf path → query = path)
    (howner : ∀ registration ∈
      ((fresh.seededWith previous).registerAll registrations).1.registration? path,
      registration.coordinate.ref = ref) :
    SameForOwner path ((fresh.seededWith previous).registerAll registrations)
      ((other.seededWith previous).registerAll registrations) := by
  have opened := opened_seededWith made previous
  have haligner : (fresh.seededWith previous).aligner = first := by rw [opened.eq]
  have hphase : (fresh.seededWith previous).phase = .collecting := by rw [opened.eq]
  have htree : (fresh.seededWith previous).tree = tree := by rw [opened.eq]
  have horder : (fresh.seededWith previous).order = tree.paths := by rw [opened.eq]
  have hlikens := likens_of_seenBy (htree ▸ addressed) haligner hscoped path
  obtain ⟨hparallel, hanswers⟩ := (Parallel.running (.inl hphase) hlikens).registerAll registrations
  rw [seededWith_withAligner made made' previous]
  rw [htree] at hparallel hanswers
  exact sameForOwner_of_parallel hparallel hanswers
    (owns_registerAll horder hself registrations howner)

end Barrier

namespace SmallBuild

def libraryRule (owner : OwnerPattern) (version : String) : Rule × String :=
  (⟨"org.lib:*@" ++ owner.display, ⟨.literal "org.lib", .wildcard, .wildcard⟩, owner⟩, version)

def ownerOf (artifact : String) : OwnerPattern :=
  .owner (.literal "org.example") (.literal artifact)

def ruling (authority : Option Authority) (source : DependencySource) (rules : OverrideLayer) :
    Aligner :=
  { authority, source, adjustments := [.override rules] }

def barrierOf (tree : ModuleTree) (policy : BarrierPolicy) (aligner : Aligner) : Barrier :=
  { aligner, policy, order := tree.paths, remaining := tree.paths.eraseDups, tree }

def replacementsOf (query : String) (run : Barrier × List (Except Stop RegistrationStatus)) :
    Option (Keyed Coordinate) :=
  (run.1.finishedModel.bind fun result => result.find query).toOption.map fun found =>
    found.info.aligned

/-- A tree in which the path of one module ends in a blank. -/
def spacedTree : ModuleTree :=
  .node (.new "app" "org.example")
    [("core", .single (.new "core" "org.example")), ("core ", .single (.new "spaced" "org.example"))]

def spacedModules : List Registration :=
  [registrationOf ":" "app" [], registrationOf ":core" "core" [],
    ⟨"spaced", ⟨"org.example", "spaced", ""⟩, [.exact ⟨"org.lib", "base", "1.0"⟩]⟩]

end SmallBuild

namespace Barrier

open SmallBuild (libraryRule ownerOf ruling barrierOf replacementsOf answers bothModules spacedTree
  spacedModules)

/-- A rule for another module that stands before all others changes the replacements of that module
only. -/
theorem same_for_app_of_core_rule :
    let run rules := (barrierOf SmallBuild.tree {} (ruling (some answers) .rest rules)).registerAll
      bothModules
    let plain := run [libraryRule .any "5.0"]
    let ruled := run [libraryRule (ownerOf "core") "7.0", libraryRule .any "5.0"]
    replacementsOf ":core" plain = some [("org.lib:base:1.0", ⟨"org.lib", "base", "5.0"⟩)] ∧
      replacementsOf ":core" ruled = some [("org.lib:base:1.0", ⟨"org.lib", "base", "7.0"⟩)] ∧
      SameForOwner ":" plain ruled := by
  intro run plain ruled
  refine ⟨by decide +kernel, by decide +kernel, ?_⟩
  have addressed : Addressed SmallBuild.tree := by
    unfold Addressed
    decide
  have made : ∀ rules, Barrier.new SmallBuild.tree (ruling (some answers) .rest rules) {}
      = .ok (barrierOf SmallBuild.tree {} (ruling (some answers) .rest rules)) := fun _ => rfl
  have hself : ∀ query ∈ SmallBuild.tree.paths,
      SmallBuild.tree.keysOf query = SmallBuild.tree.keysOf ":" → query = ":" := by decide +kernel
  have howner : ∀ registration ∈ plain.1.registration? ":",
      registration.coordinate.ref = ⟨"org.example", "app"⟩ := by decide +kernel
  have hscoped : (ruling (some answers) .rest [libraryRule .any "5.0"]).seenBy
        ⟨"org.example", "app"⟩
      = (ruling (some answers) .rest [libraryRule (ownerOf "core") "7.0", libraryRule .any "5.0"]
        ).seenBy ⟨"org.example", "app"⟩ := rfl
  exact same_for_owner addressed hscoped (made _) (made _) none bothModules hself howner

/-- The path with the blank leads to the other module, and what a rule for the first one gives is
written for the second one. -/
theorem apart_of_shared_path :
    let policy : BarrierPolicy := { versionModification := false }
    let aligner rules := ruling none .disabled rules
    let run rules := (barrierOf spacedTree policy (aligner rules)).registerAll spacedModules
    let ruled := [libraryRule (ownerOf "spaced") "2.0"]
    (∀ rules, Barrier.new spacedTree (aligner rules) policy
        = .ok (barrierOf spacedTree policy (aligner rules))) ∧
      (aligner []).seenBy ⟨"org.example", "core"⟩ = (aligner ruled).seenBy ⟨"org.example", "core"⟩ ∧
      ((run []).1.registration? ":core").map (fun registration => registration.coordinate.ref)
        = some ⟨"org.example", "core"⟩ ∧
      replacementsOf ":core" (run []) = some [] ∧
      replacementsOf ":core" (run ruled)
        = some [("org.lib:base:1.0", ⟨"org.lib", "base", "2.0"⟩)] := by
  intro policy aligner run ruled
  exact ⟨fun _ => rfl, rfl, by decide +kernel, by decide +kernel, by decide +kernel⟩

end Barrier

end BuildAlignment
