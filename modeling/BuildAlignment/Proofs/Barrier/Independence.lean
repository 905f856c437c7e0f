import BuildAlignment.Proofs.Alignment.Assembly
import BuildAlignment.Proofs.Barrier.Publishing
import BuildAlignment.Proofs.Barrier.Staged

/-!
# What dependencies decide

The dependencies of the modules decide the replacements and what is told to be not aligned.
Everything else comes from the coordinates of the modules, as far as an authority does not mix up
its answers.

* `AgreeUpTo` holds of two results that fail alike or succeed with related values.
* `ModuleTree.SameModules` holds of trees that differ at most in their replacements. By
  `ModuleTree.SameModules.change` a change of a module keeps it.
* `Staging.SameVersions.agree_stage`: the same versions are written for whatever dependencies.
* `Authority.Pointwise` holds of an authority that answers every coordinate on its own, and
  `Aligner.Uniform` of an aligner that asks such an authority or none.
* `AlignmentHandle.Same` holds of handles that differ at most in what is not aligned.
* `Barrier.agree_outcome`: two builds with the same coordinates come to the same outcome but for
  that.
-/

namespace BuildAlignment

inductive AgreeUpTo {ε α : Type} (related : α → α → Prop) : Except ε α → Except ε α → Prop
  | ok {first second : α} (holds : related first second) :
      AgreeUpTo related (.ok first) (.ok second)
  | error (error : ε) : AgreeUpTo related (.error error) (.error error)

theorem AgreeUpTo.map {ε α β : Type} {related : α → α → Prop} {other : β → β → Prop} {f g : α → β}
    (hmap : ∀ first second, related first second → other (f first) (g second))
    {first second : Except ε α} (h : AgreeUpTo related first second) :
    AgreeUpTo other (first.map f) (second.map g) := by
  cases h with
  | ok hrelated => exact .ok (hmap _ _ hrelated)
  | error error => exact .error error

theorem AgreeUpTo.exists_of_ok {ε α : Type} {related : α → α → Prop} {first : Except ε α}
    {second : α} (h : AgreeUpTo related first (.ok second)) :
    ∃ value, first = .ok value ∧ related value second := by
  cases h with
  | ok hrelated => exact ⟨_, rfl, hrelated⟩

theorem AgreeUpTo.mapError {ε ε' α : Type} {related : α → α → Prop} (f : ε → ε')
    {first second : Except ε α} (h : AgreeUpTo related first second) :
    AgreeUpTo related (first.mapError f) (second.mapError f) := by
  cases h with
  | ok hrelated => exact .ok hrelated
  | error error => exact .error (f error)

/-! ### Trees up to their replacements -/

/-- What is kept for a module but its replacements. -/
def ModuleInfo.unaligned (info : ModuleInfo) : ModuleInfo := { info with aligned := [] }

theorem ModuleInfo.unaligned_eq_iff {info kept : ModuleInfo} : info.unaligned = kept.unaligned ↔
    info.name = kept.name ∧ info.group = kept.group ∧ info.version = kept.version ∧
      info.formerVersion = kept.formerVersion := by
  simp [unaligned]

theorem ModuleInfo.eq_of_unaligned {info kept : ModuleInfo} (h : info.unaligned = kept.unaligned)
    (haligned : info.aligned = kept.aligned) : info = kept := by
  have hsame : { info.unaligned with aligned := info.aligned }
      = { kept.unaligned with aligned := kept.aligned } := by rw [h, haligned]
  exact hsame

namespace ModuleTree

/-- The same modules with the same versions, whatever their replacements are. -/
structure SameModules (first second : ModuleTree) : Prop where
  listed : first.nodes.map (fun entry => (entry.1, entry.2.unaligned))
    = second.nodes.map fun entry => (entry.1, entry.2.unaligned)
  located : ∀ keys, (first.infoAt? keys).map ModuleInfo.unaligned
    = (second.infoAt? keys).map ModuleInfo.unaligned

namespace SameModules

variable {first second : ModuleTree}

theorem refl (tree : ModuleTree) : SameModules tree tree := ⟨rfl, fun _ => rfl⟩

theorem outline (h : SameModules first second) : SameOutline first second := by
  constructor
  · have hnames := congrArg
      (List.map fun (entry : List String × ModuleInfo) => (entry.1, entry.2.name)) h.listed
    simpa only [List.map_map, Function.comp_def, ModuleInfo.unaligned] using hnames
  · intro keys
    have hname := congrArg (Option.map ModuleInfo.name) (h.located keys)
    simpa only [Option.map_map, Function.comp_def, ModuleInfo.unaligned] using hname

theorem updateAt (h : SameModules first second) (keys : List String) {info other : ModuleInfo}
    (hinfo : info.unaligned = other.unaligned) :
    SameModules (first.updateAt (fun _ => info) keys) (second.updateAt (fun _ => other) keys) := by
  have hside : ∀ (tree : ModuleTree) (kept : ModuleInfo),
      (tree.updateAt (fun _ => kept) keys).nodes.map (fun entry => (entry.1, entry.2.unaligned))
        = (tree.nodes.map fun entry => (entry.1, entry.2.unaligned)).map fun entry =>
            if entry.1 = keys then (entry.1, kept.unaligned) else entry := by
    intro tree kept
    rw [nodes_updateAt, List.map_map, List.map_map]
    refine List.map_congr_left ?_
    intro entry _
    by_cases hkeys : entry.1 = keys
    · simp [hkeys]
    · simp [hkeys]
  constructor
  · rw [hside, hside, h.listed, hinfo]
  · intro target
    rw [infoAt?_updateAt, infoAt?_updateAt]
    split
    · have hconst := congrArg (Option.map fun _ => info.unaligned) (h.located target)
      simpa only [Option.map_map, Function.comp_def, ← hinfo] using hconst
    · exact h.located target

/-- A change that treats replacements alike keeps the trees the same. -/
theorem change (h : SameModules first second) (query : String)
    {step other : ModuleInfo → Except AlignmentError ModuleInfo}
    (hstep : ∀ info kept, info.unaligned = kept.unaligned →
      AgreeUpTo (fun info kept => info.unaligned = kept.unaligned) (step info) (other kept)) :
    AgreeUpTo SameModules (first.change query step) (second.change query other) := by
  rw [ModuleTree.change, ModuleTree.change, h.outline.keysOf_eq, h.outline.notFound_eq]
  cases second.keysOf query with
  | error error => exact .error error
  | ok keys =>
    have hlocated := h.located keys
    rw [infoAt?, infoAt?] at hlocated
    cases hfirst : first.locate? keys with
    | none =>
      have hsecond : second.locate? keys = none := by
        rw [hfirst, Option.map_none, Option.map_none] at hlocated
        exact Option.map_eq_none_iff.1 (Option.map_eq_none_iff.1 hlocated.symm)
      simp only [hfirst, hsecond]
      exact .error _
    | some found =>
      rw [hfirst, Option.map_some, Option.map_some] at hlocated
      obtain ⟨kept, hkept, hinfo⟩ := Option.map_eq_some_iff.1 hlocated.symm
      obtain ⟨met, hsecond, rfl⟩ := Option.map_eq_some_iff.1 hkept
      simp only [hfirst, hsecond]
      exact (hstep found.info met.info hinfo.symm).map fun _ _ hset => h.updateAt keys hset

end SameModules

end ModuleTree

open ModuleTree (SameModules)

/-! ### Staging -/

namespace Staging

variable {staging other : Staging}

/-- Two responses are written with the same versions for the modules. -/
structure SameVersions (staging other : Staging) : Prop where
  policy : staging.policy = other.policy
  newVersion : staging.newVersion = other.newVersion
  declaredVersions : staging.declaredVersions = other.declaredVersions

theorem SameVersions.specified?_eq (h : SameVersions staging other) (path : String) :
    staging.specified? path = other.specified? path := by
  rw [specified?, specified?, declaredVersion, declaredVersion, h.declaredVersions]

theorem SameVersions.assignedVersion?_eq (h : SameVersions staging other) (path : String) :
    staging.assignedVersion? path = other.assignedVersion? path := by
  rw [assignedVersion?, assignedVersion?, declaredVersion, declaredVersion, h.policy, h.newVersion,
    h.declaredVersions]

theorem SameVersions.agree_stageInfo (h : SameVersions staging other) {request met : ModuleRequest}
    (hpath : request.path = met.path) {info kept : ModuleInfo}
    (hinfo : info.unaligned = kept.unaligned) :
    AgreeUpTo (fun info kept => info.unaligned = kept.unaligned) (staging.stageInfo request info)
      (other.stageInfo met kept) := by
  obtain ⟨hname, hgroup, hversion, hformer⟩ := ModuleInfo.unaligned_eq_iff.1 hinfo
  rw [stageInfo_eq, stageInfo_eq, hpath, h.assignedVersion?_eq, hversion]
  split
  · exact .error _
  · refine .ok ?_
    rw [ModuleInfo.unaligned_eq_iff, version_filled, version_filled, formerVersion_filled,
      formerVersion_filled, hpath, h.assignedVersion?_eq, h.specified?_eq, hversion, hformer]
    exact ⟨hname, hgroup, rfl, rfl⟩

theorem SameVersions.agree_stageModules (h : SameVersions staging other)
    {requests others : List ModuleRequest}
    (hpaths : requests.map ModuleRequest.path = others.map ModuleRequest.path)
    {first second : ModuleTree} (hsame : SameModules first second) :
    AgreeUpTo SameModules (staging.stageModules requests first)
      (other.stageModules others second) := by
  induction requests generalizing others first second with
  | nil =>
    rw [List.map_nil] at hpaths
    rw [List.map_eq_nil_iff.1 hpaths.symm]
    exact .ok hsame
  | cons request rest ih =>
    cases others with
    | nil => cases hpaths
    | cons met others =>
      obtain ⟨hpath, hrest⟩ := List.cons.inj hpaths
      have hagree : AgreeUpTo SameModules (staging.stageModule first request)
          (other.stageModule second met) := by
        rw [stageModule, stageModule, hpath]
        exact hsame.change _ fun _ _ hinfo => h.agree_stageInfo hpath hinfo
      rw [stageModules, stageModules, List.foldlM_cons, List.foldlM_cons]
      generalize staging.stageModule first request = left, other.stageModule second met = right
        at hagree
      cases hagree with
      | error error => exact .error error
      | ok hnext => exact ih hrest hnext

theorem SameVersions.agree_stage (h : SameVersions staging other) {request met : Request}
    (hversion : request.projectVersion = met.projectVersion)
    (hpaths : request.modules.map ModuleRequest.path = met.modules.map ModuleRequest.path)
    (tree : ModuleTree) : AgreeUpTo SameModules (stage staging request tree)
      (stage other met tree) := by
  rw [stage, stage, hversion]
  cases stageRoot met.projectVersion tree with
  | error error => exact .error error
  | ok started => exact h.agree_stageModules hpaths (.refl started)

/-- Two responses give the same versions to what a module resolves to. -/
def Agrees (staging other : Staging) (request : ModuleRequest) : Prop :=
  ∀ resolved ∈ request.resolved, staging.response.alignedVersion? resolved request.owner
    = other.response.alignedVersion? resolved request.owner

namespace Agrees

variable {request : ModuleRequest}

theorem missing_eq (h : staging.Agrees other request) :
    staging.missing request = other.missing request := by
  refine List.filter_congr ?_
  intro resolved hresolved
  rw [h resolved hresolved]

theorem replaced_eq (h : staging.Agrees other request) (aligned : Keyed Coordinate) :
    staging.replaced request.owner request.dependencies aligned
      = other.replaced request.owner request.dependencies aligned := by
  have hwritten : request.dependencies.filterMap (staging.written? request.owner)
      = request.dependencies.filterMap (other.written? request.owner) := by
    refine List.filterMap_congr ?_
    intro dependency hdependency
    rw [written?, written?, Dependency.replacement?, Dependency.replacement?]
    cases hresolved : dependency.resolved with
    | none => rfl
    | some resolved =>
      have hlisted : resolved ∈ request.resolved :=
        List.mem_filterMap.2 ⟨dependency, hdependency, hresolved⟩
      simp only [Option.bind_some, h resolved hlisted]
  rw [replaced, replaced, hwritten]

end Agrees

theorem SameVersions.stageInfo_congr (h : SameVersions staging other) {request : ModuleRequest}
    (agrees : staging.Agrees other request) (info : ModuleInfo) :
    staging.stageInfo request info = other.stageInfo request info := by
  rw [stageInfo_eq, stageInfo_eq, filled, filled, h.assignedVersion?_eq, h.specified?_eq,
    agrees.replaced_eq]

theorem SameVersions.stage_congr (h : SameVersions staging other) {request : Request}
    (agrees : ∀ entry ∈ request.modules, staging.Agrees other entry) (tree : ModuleTree) :
    stage staging request tree = stage other request tree := by
  rw [stage, stage]
  cases stageRoot request.projectVersion tree with
  | error error => rfl
  | ok started =>
    simp only [stageModules]
    generalize request.modules = requests at agrees
    induction requests generalizing started with
    | nil => rfl
    | cons entry rest ih =>
      have hfirst : staging.stageModule started entry = other.stageModule started entry := by
        rw [stageModule, stageModule]
        exact congrArg _ (funext (h.stageInfo_congr (agrees entry List.mem_cons_self)))
      rw [List.foldlM_cons, List.foldlM_cons, hfirst]
      exact congrArg _ (funext fun next =>
        ih next fun later hlater => agrees later (List.mem_cons_of_mem _ hlater))

end Staging

/-! ### Skipped alignments -/

namespace Response

/-- What a response knows of the version of the build. -/
def buildVersion (response : Response) : Option String × Option String :=
  (response.rawProjectVersion, response.newProjectVersion)

end Response

/-- An adjustment makes the same of the version of a build whatever the dependencies are. -/
theorem Adjustment.buildVersion_applied? (adjustment : Adjustment) {request met : Request}
    {response other : Response} (hversion : request.projectVersion = met.projectVersion)
    (h : response.buildVersion = other.buildVersion) :
    (adjustment.applied? request response).map Response.buildVersion
      = (adjustment.applied? met other).map Response.buildVersion := by
  cases adjustment with
  | override rules => exact congrArg some h
  | pinDynamic => exact congrArg some h
  | projectVersion settings =>
    have hraw : response.rawProjectVersion = other.rawProjectVersion := congrArg Prod.fst h
    rw [applied?, applied?, hversion, hraw, Option.map_map, Option.map_map]
    refine congrArg (Option.map · _) ?_
    funext version
    exact congrArg (·, some version) hraw

theorem Aligner.buildVersion_adjusted? (aligner : Aligner) {request met : Request}
    {response other : Response} (hversion : request.projectVersion = met.projectVersion)
    (h : response.buildVersion = other.buildVersion) :
    (aligner.adjusted? request response).map Response.buildVersion
      = (aligner.adjusted? met other).map Response.buildVersion := by
  rw [adjusted?, adjusted?]
  generalize aligner.adjustments = adjustments
  induction adjustments generalizing response other with
  | nil => exact congrArg some h
  | cons adjustment rest ih =>
    have hfirst := adjustment.buildVersion_applied? hversion h
    rw [List.foldlM_cons, List.foldlM_cons]
    cases hleft : adjustment.applied? request response with
    | none =>
      rw [hleft, Option.map_none] at hfirst
      rw [Option.map_eq_none_iff.1 hfirst.symm]
      rfl
    | some next =>
      rw [hleft, Option.map_some] at hfirst
      obtain ⟨met, hmet, hnext⟩ := Option.map_eq_some_iff.1 hfirst.symm
      rw [hmet]
      exact ih hnext.symm

/-! ### Authorities -/

/-- An authority that answers every list, and every coordinate as if it alone were asked for. -/
def Authority.Pointwise (authority : Authority) (answer : Coordinate → Option String) : Prop :=
  ∀ asked, ∃ versions, authority asked = .ok versions ∧
    ∀ coordinate ∈ asked, NewVersions.find? coordinate versions = answer coordinate

/-- An aligner that asks no authority, or one that answers every coordinate on its own. -/
inductive Aligner.Uniform (aligner : Aligner) : Prop
  | disabled (source : aligner.source = .disabled) : Uniform aligner
  | pointwise {authority : Authority} {answer : Coordinate → Option String}
      (source : aligner.source = .rest) (there : aligner.authority = some authority)
      (answers : authority.Pointwise answer) : Uniform aligner

/-- Two requests are aligned with the same version of the build. -/
inductive AlignmentOutcome.Alike (request met : Request) :
    AlignmentOutcome → AlignmentOutcome → Prop
  | aborted : Alike request met .aborted .aborted
  | skipped {response other : Response} (versions : response.buildVersion = other.buildVersion) :
      Alike request met (.skipped ⟨request, response⟩) (.skipped ⟨met, other⟩)
  | aligned {response other : Response} (versions : response.buildVersion = other.buildVersion) :
      Alike request met (.aligned ⟨request, response⟩) (.aligned ⟨met, other⟩)

open AlignmentOutcome (Alike)

theorem Aligner.alike_outcomeOf (aligner : Aligner) {request met : Request}
    (hversion : request.projectVersion = met.projectVersion) {response other : Response}
    (h : response.buildVersion = other.buildVersion) {wrap : Alignment → AlignmentOutcome}
    (hwrap : ∀ {response other : Response}, response.buildVersion = other.buildVersion →
      Alike request met (wrap ⟨request, response⟩) (wrap ⟨met, other⟩)) :
    Alike request met (aligner.outcomeOf wrap request response)
      (aligner.outcomeOf wrap met other) := by
  have hadjusted := aligner.buildVersion_adjusted? hversion h
  rw [outcomeOf, outcomeOf]
  cases hfirst : aligner.adjusted? request response with
  | none =>
    rw [hfirst, Option.map_none] at hadjusted
    rw [Option.map_eq_none_iff.1 hadjusted.symm]
    exact .aborted
  | some adjusted =>
    rw [hfirst, Option.map_some] at hadjusted
    obtain ⟨kept, hkept, hsame⟩ := Option.map_eq_some_iff.1 hadjusted.symm
    rw [hkept]
    exact hwrap hsame.symm

/-- The version of a build comes from the answer for its first coordinate. -/
theorem Response.buildVersion_ofVersions {versions others : NewVersions}
    {projects : List Coordinate} (h : ∀ project ∈ projects,
      NewVersions.find? project versions = NewVersions.find? project others) :
    (ofVersions versions projects).buildVersion = (ofVersions others projects).buildVersion := by
  rw [ofVersions, ofVersions, buildVersion, buildVersion]
  cases projects with
  | nil => rfl
  | cons project rest => simp only [List.head?_cons, Option.bind_some, h project List.mem_cons_self]

theorem Request.mem_authorityCoordinates_of_project {request : Request} {project : Coordinate}
    (h : project ∈ request.projects) : project ∈ request.authorityCoordinates := by
  rw [authorityCoordinates, List.mem_eraseDups]
  exact List.mem_append_left _ h

/-- Requests for the same coordinates are aligned with the same version of the build. -/
theorem Aligner.Uniform.alike_align {aligner : Aligner} (h : aligner.Uniform)
    {request met : Request} (hprojects : request.projects = met.projects)
    (hversion : request.projectVersion = met.projectVersion) :
    Alike (aligner.restricted request) (aligner.restricted met) (aligner.align request).outcome
      (aligner.align met).outcome := by
  have hrestricted : (aligner.restricted request).projectVersion
      = (aligner.restricted met).projectVersion := by
    rw [projectVersion_restricted, projectVersion_restricted, hversion]
  cases h with
  | disabled source =>
    simp only [align, source]
    exact aligner.alike_outcomeOf hrestricted rfl .skipped
  | pointwise source there answers =>
    obtain ⟨versions, hanswer, hversions⟩ :=
      answers (aligner.restricted request).authorityCoordinates
    obtain ⟨others, hother, hothers⟩ := answers (aligner.restricted met).authorityCoordinates
    simp only [align, source, there, hanswer, hother]
    refine aligner.alike_outcomeOf hrestricted ?_ .aligned
    have hsame : (aligner.restricted request).projects = (aligner.restricted met).projects := by
      rw [projects_restricted, projects_restricted, hprojects]
    rw [hsame]
    refine Response.buildVersion_ofVersions ?_
    intro project hproject
    rw [hversions project (Request.mem_authorityCoordinates_of_project (hsame ▸ hproject)),
      hothers project (Request.mem_authorityCoordinates_of_project hproject)]

/-! ### Builds with the same coordinates -/

structure AlignmentHandle.Same (first second : AlignmentHandle) : Prop where
  newProjectVersion : first.newProjectVersion = second.newProjectVersion
  skipped : first.skipped = second.skipped

theorem AlignmentHandle.Same.eq {first second : AlignmentHandle} (h : first.Same second)
    (hnonAligned : first.nonAligned = second.nonAligned) : first = second := by
  obtain ⟨version, skipped, nonAligned⟩ := first
  obtain rfl : version = second.newProjectVersion := h.newProjectVersion
  obtain rfl : skipped = second.skipped := h.skipped
  obtain rfl : nonAligned = second.nonAligned := hnonAligned
  rfl

/-- What a registration says without its dependencies, under the path of its module. -/
def Registered.outline (entry : Registered) : String × Coordinate := (entry.1, entry.2.coordinate)

theorem projectCoordinates?_congr (policy : BarrierPolicy) {modules others : List Registered}
    (h : modules.map Registered.outline = others.map Registered.outline) :
    projectCoordinates? policy modules = projectCoordinates? policy others := by
  have hside : ∀ entries : List Registered, projectCoordinates? policy entries
      = ((entries.map Registered.outline).filter fun entry => !Text.isBlank entry.2.group
          && !Version.isUnspecified entry.2.version).mapM fun entry =>
            projectCoordinate? policy entry.2 := by
    intro entries
    rw [projectCoordinates?, List.filter_map, List.mapM_map]
    rfl
  rw [hside, hside, h]

theorem projectVersion?_congr {modules others : List Registered}
    (h : modules.map Registered.outline = others.map Registered.outline) :
    projectVersion? modules = projectVersion? others := by
  have hside : ∀ entries : List Registered, projectVersion? entries
      = ((entries.map Registered.outline).map fun entry => entry.2.version).find? fun version =>
          !Version.isUnspecified version := by
    intro entries
    rw [projectVersion?, List.map_map]
    rfl
  rw [hside, hside, h]

namespace Barrier

/-- Two trees with their handles that differ at most in what dependencies decide. -/
def SamePublished (made met : ModuleTree × AlignmentHandle) : Prop :=
  SameModules made.1 met.1 ∧ made.2.Same met.2

variable {first second : Barrier} {modules others : List Registered}

theorem agree_stageResponse (hpolicy : first.policy = second.policy)
    (htree : first.tree = second.tree)
    (h : modules.map Registered.outline = others.map Registered.outline) {request met : Request}
    (hversion : request.projectVersion = met.projectVersion)
    (hpaths : request.modules.map ModuleRequest.path = met.modules.map ModuleRequest.path)
    {response other : Response} (hresponse : response.buildVersion = other.buildVersion)
    (skipped : Bool) :
    AgreeUpTo SamePublished (first.stageResponse modules request response skipped)
      (second.stageResponse others met other skipped) := by
  have hnew : response.newProjectVersion = other.newProjectVersion := congrArg Prod.snd hresponse
  have hdeclared : modules.map (fun entry => (entry.1, entry.2.coordinate.version))
      = others.map fun entry => (entry.1, entry.2.coordinate.version) := by
    have hversions := congrArg
      (List.map fun (entry : String × Coordinate) => (entry.1, entry.2.version)) h
    simpa only [List.map_map, Function.comp_def, Registered.outline] using hversions
  rw [stageResponse, stageResponse, hpolicy, htree, hnew, hversion, hdeclared]
  have hstaging : ∀ newVersion, (second.staging others response newVersion).SameVersions
      (second.staging others other newVersion) := fun _ => ⟨rfl, rfl, rfl⟩
  refine AgreeUpTo.map ?_ ((hstaging _).agree_stage hversion hpaths second.tree)
  exact fun _ _ hsame => ⟨hsame, rfl, rfl⟩

theorem agree_finish (hpolicy : first.policy = second.policy) (htree : first.tree = second.tree)
    (h : modules.map Registered.outline = others.map Registered.outline) {request met : Request}
    (hversion : request.projectVersion = met.projectVersion)
    (hpaths : request.modules.map ModuleRequest.path = met.modules.map ModuleRequest.path)
    {made kept : AlignmentOutcome} (halike : AlignmentOutcome.Alike request met made kept) :
    AgreeUpTo SamePublished (first.finish modules made) (second.finish others kept) := by
  cases halike with
  | aborted => exact .error _
  | skipped hresponse =>
    exact (agree_stageResponse hpolicy htree h hversion hpaths hresponse true).mapError _
  | @aligned response other hresponse =>
    -- What is pinned says nothing about the version of the build.
    have hpinned : (first.pinSeeded modules ⟨request, response⟩).buildVersion
        = (second.pinSeeded others ⟨met, other⟩).buildVersion := hresponse
    exact (agree_stageResponse hpolicy htree h hversion hpaths hpinned false).mapError _

/-- The coordinates of the modules decide everything but the replacements and what is not
aligned. -/
theorem agree_outcome (haligner : first.aligner = second.aligner)
    (huniform : second.aligner.Uniform) (hpolicy : first.policy = second.policy)
    (htree : first.tree = second.tree)
    (h : modules.map Registered.outline = others.map Registered.outline) :
    AgreeUpTo SamePublished (first.outcome modules) (second.outcome others) := by
  rw [outcome, outcome, haligner, hpolicy, combinedRequest, combinedRequest,
    projectCoordinates?_congr _ h, projectVersion?_congr h]
  cases projectCoordinates? second.policy others with
  | none => exact .error _
  | some projects =>
    cases projectVersion? others with
    | none => exact .error _
    | some version =>
      simp only
      generalize hrequest : Request.mk projects version (modules.map _) = request
      generalize hmet : Request.mk projects version (others.map _) = met
      have hversion : (second.aligner.restricted request).projectVersion
          = (second.aligner.restricted met).projectVersion := by
        rw [Aligner.projectVersion_restricted, Aligner.projectVersion_restricted, ← hrequest,
          ← hmet]
      have hpaths : (second.aligner.restricted request).modules.map ModuleRequest.path
          = (second.aligner.restricted met).modules.map ModuleRequest.path := by
        have hkeys := congrArg (List.map (Prod.fst : String × Coordinate → String)) h
        rw [List.map_map, List.map_map] at hkeys
        rw [Aligner.paths_restricted, Aligner.paths_restricted, ← hrequest, ← hmet, List.map_map,
          List.map_map]
        exact hkeys
      refine agree_finish hpolicy htree h hversion hpaths (huniform.alike_align ?_ ?_)
      · rw [← hrequest, ← hmet]
      · rw [← hrequest, ← hmet]

end Barrier

end BuildAlignment
