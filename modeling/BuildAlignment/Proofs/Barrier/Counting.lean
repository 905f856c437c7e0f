import BuildAlignment.BuildRun
import BuildAlignment.Proofs.Barrier.Independence
import BuildAlignment.Proofs.Barrier.Published
import BuildAlignment.Proofs.BuildDescription
import BuildAlignment.Proofs.Settings
import BuildAlignment.Proofs.Version.Repetition

/-!
# Counting on from run to run

The version of a build is counted on from the version that its tree had at the end of the run before.

* `Aligner.Counts` holds of aligners that compute the version of the build first and leave it alone
  then. By `Settings.counts_aligner` those of the settings do.
* `Barrier.newProjectVersion_of_outcome`: the new version of a finished build is what was computed
  from the version that the authority states for it.
* `BuildDescription.registered_eq`: two finished runs of a described build have the same
  registrations.
* `Session.counted_of_completed`: in the run after a finished one the version of the build has the
  next number on the same base.
* `Session.recounted_of_root_version`: it has not where the configuration gives the root a version.
-/

namespace BuildAlignment

/-! ### The version that is computed -/

/-- Adjustments that do not set the version of the build leave it as it is. -/
theorem Response.newProjectVersion_of_foldlM {adjustments : List Adjustment} {request : Request}
    {response adjusted : Response}
    (hnone : ∀ adjustment ∈ adjustments, adjustment.versionSettings? = none)
    (h : adjustments.foldlM (fun current adjustment => adjustment.applied? request current)
      response = some adjusted) : adjusted.newProjectVersion = response.newProjectVersion := by
  induction adjustments generalizing response with
  | nil =>
    cases h
    rfl
  | cons adjustment rest ih =>
    rw [List.foldlM_cons] at h
    obtain ⟨next, hnext, hrest⟩ := Option.bind_eq_some_iff.1 h
    rw [ih (fun other hother => hnone other (List.mem_cons_of_mem _ hother)) hrest]
    have hfirst := hnone adjustment List.mem_cons_self
    cases adjustment with
    | override rules =>
      cases hnext
      rfl
    | projectVersion settings => cases hfirst
    | pinDynamic =>
      cases hnext
      rfl

/-- The aligner sets the version of the build first, by some settings, and leaves it alone then. -/
def Aligner.Counts (aligner : Aligner) (settings : ProjectVersionSettings) : Prop :=
  ∃ rest, aligner.adjustments = .projectVersion settings :: rest ∧
    ∀ adjustment ∈ rest, adjustment.versionSettings? = none

/-- What is computed is the version that the adjusted response has for the build. -/
theorem Aligner.Counts.compute?_eq {aligner : Aligner} {settings : ProjectVersionSettings}
    (h : aligner.Counts settings) {request : Request} {response adjusted : Response}
    (hadjusted : aligner.adjusted? request response = some adjusted) :
    ∃ version, settings.compute? response.rawProjectVersion request.projectVersion = some version ∧
      adjusted.newProjectVersion = some version := by
  obtain ⟨rest, hrest, hnone⟩ := h
  rw [adjusted?, hrest, List.foldlM_cons] at hadjusted
  obtain ⟨next, hnext, hlater⟩ := Option.bind_eq_some_iff.1 hadjusted
  obtain ⟨version, hversion, rfl⟩ := Option.map_eq_some_iff.1 hnext
  exact ⟨version, hversion, Response.newProjectVersion_of_foldlM hnone hlater⟩

theorem Aligner.of_new_eq_ok {authority : Option Authority} {source : DependencySource}
    {aligner : Aligner} (h : Aligner.new authority source = .ok aligner) :
    aligner = { authority, source } := by
  rw [Aligner.new] at h
  split at h
  · cases h
  · exact (Except.ok.inj h).symm

/-- Rules come behind the version of the build and before what is pinned. -/
theorem Settings.counts_withRules (exclusions : List Rule) (overrides : OverrideLayer)
    {started : Aligner} (hstarted : started.adjustments = []) (settings : ProjectVersionSettings) :
    let aligner := withRules exclusions overrides
      ((started.withAdjustment (.projectVersion settings)).withAdjustment .pinDynamic)
    aligner.authority = started.authority ∧ aligner.source = started.source ∧
      aligner.Counts settings := by
  obtain ⟨authority, source, exclusion, adjustments⟩ := started
  obtain rfl : adjustments = [] := hstarted
  intro aligner
  dsimp only [aligner]
  rw [withRules]
  have hcounts : ∀ layer, ∀ adjustment ∈ [Adjustment.override layer, .pinDynamic],
      adjustment.versionSettings? = none := by simp [Adjustment.versionSettings?]
  cases exclusions.isEmpty with
  | true =>
    cases overrides with
    | nil => exact ⟨rfl, rfl, [.pinDynamic], rfl, fun _ hmem => hcounts [] _ (.tail _ hmem)⟩
    | cons rule others => exact ⟨rfl, rfl, _, rfl, hcounts (rule :: others)⟩
  | false =>
    cases overrides with
    | nil => exact ⟨rfl, rfl, [.pinDynamic], rfl, fun _ hmem => hcounts [] _ (.tail _ hmem)⟩
    | cons rule others => exact ⟨rfl, rfl, _, rfl, hcounts (rule :: others)⟩

/-- The aligner of some settings asks the authority where the source says so, and counts by the
settings. -/
theorem Settings.counts_aligner {settings : Settings} {authority : Option Authority}
    {previous : Option ModuleTree} {aligner : Aligner}
    (h : settings.aligner authority previous = .ok aligner) :
    aligner.source = settings.source ∧
      (settings.source = .rest → aligner.authority = authority) ∧
      aligner.Counts (settings.projectVersionSettings previous) := by
  rw [Settings.aligner] at h
  split at h
  · cases h
  · cases h
  · cases h
  · rename_i exclusions overrides started _ _ hstarted
    have hnew := Aligner.of_new_eq_ok hstarted
    cases h
    obtain ⟨hauthority, hsource, hcounts⟩ := counts_withRules exclusions overrides
      (congrArg Aligner.adjustments hnew) (settings.projectVersionSettings previous)
    refine ⟨hsource.trans (congrArg Aligner.source hnew), ?_, hcounts⟩
    intro hrest
    rw [hauthority, hnew, hrest]

/-! ### The version that the authority states -/

/-- The version that a source states for a build with some coordinates, the first of which counts. -/
def DependencySource.statedVersion? (answer : Coordinate → Option String)
    (projects : List Coordinate) : DependencySource → Option String
  | rest => (projects.head?.bind answer).filter fun version => !Text.isBlank version
  | disabled => none

/-- What is stated has been answered for some coordinate. -/
theorem DependencySource.exists_of_statedVersion? {answer : Coordinate → Option String}
    {projects : List Coordinate} {source : DependencySource} {version : String}
    (h : source.statedVersion? answer projects = some version) :
    ∃ project, answer project = some version := by
  cases source with
  | disabled => cases h
  | rest =>
    obtain ⟨hgiven, -⟩ := Option.filter_eq_some_iff.1 h
    obtain ⟨project, -, hanswer⟩ := Option.bind_eq_some_iff.1 hgiven
    exact ⟨project, hanswer⟩

theorem Response.rawProjectVersion_ofVersions {answer : Coordinate → Option String}
    {versions : NewVersions} {projects : List Coordinate}
    (h : ∀ project ∈ projects, versions.find? project = answer project) :
    (ofVersions versions projects).rawProjectVersion
      = DependencySource.rest.statedVersion? answer projects := by
  rw [ofVersions, DependencySource.statedVersion?]
  cases projects with
  | nil => rfl
  | cons project rest =>
    simp only [List.head?_cons, Option.bind_some]
    rw [h project List.mem_cons_self]

namespace Barrier

/-- The handle of a response that was written tells the version that was computed. -/
theorem newProjectVersion_of_stageResponse {barrier : Barrier} {modules : List Registered}
    {request : Request} {response adjusted : Response} {pins : List Coordinate} {skipped : Bool}
    {tree : ModuleTree} {handle : AlignmentHandle} {settings : ProjectVersionSettings}
    (counts : barrier.aligner.Counts settings)
    (hadjusted : barrier.aligner.adjusted? request response = some adjusted)
    (h : barrier.stageResponse modules request (adjusted.pin pins) skipped = .ok (tree, handle)) :
    settings.compute? response.rawProjectVersion request.projectVersion
      = some handle.newProjectVersion := by
  obtain ⟨version, hversion, hnew⟩ := counts.compute?_eq hadjusted
  obtain ⟨staged, -, heq⟩ := of_map_eq_ok h
  have htold : (adjusted.pin pins).newProjectVersion.getD request.projectVersion
      = handle.newProjectVersion := congrArg (AlignmentHandle.newProjectVersion ∘ Prod.snd) heq
  rw [hversion, ← htold]
  exact congrArg (fun found : Option String => some (found.getD request.projectVersion)) hnew.symm

/-- The new version of a build is what is computed from the version that the authority states for it
or else from the first one that a module declares. -/
theorem newProjectVersion_of_outcome {barrier : Barrier} {modules : List Registered}
    {tree : ModuleTree} {handle : AlignmentHandle} {settings : ProjectVersionSettings}
    {answer : Coordinate → Option String} (counts : barrier.aligner.Counts settings)
    (pointwise : barrier.aligner.source = .rest →
      ∀ known ∈ barrier.aligner.authority, Authority.Pointwise known answer)
    (h : barrier.outcome modules = .ok (tree, handle)) :
    ∃ projects declared, projectCoordinates? barrier.policy modules = some projects ∧
      projectVersion? modules = some declared ∧
      settings.compute? (barrier.aligner.source.statedVersion? answer projects) declared
        = some handle.newProjectVersion := by
  rw [outcome] at h
  split at h
  · cases h
  · rename_i combined hcombined
    obtain ⟨hprojects, hdeclared, -⟩ := of_combinedRequest_eq_ok hcombined
    refine ⟨_, _, hprojects, hdeclared, ?_⟩
    rw [← Aligner.projectVersion_restricted barrier.aligner]
    rcases of_finish_eq_ok h with ⟨alignment, halign, hstage⟩ | ⟨alignment, halign, hstage⟩
    · obtain ⟨hsource, -, hrequest, hadjusted⟩ := Aligner.of_align_eq_skipped halign
      have hpin : alignment.response.pin [] = alignment.response := by
        rw [Response.pin, List.append_nil]
      rw [hrequest, ← hpin] at hstage
      have hstated : DependencySource.disabled.statedVersion? answer combined.projects
          = Response.empty.rawProjectVersion := rfl
      rw [hsource, hstated]
      exact newProjectVersion_of_stageResponse counts hadjusted hstage
    · obtain ⟨ask, versions, hsource, hthere, -, hanswer, hrequest, hadjusted⟩ :=
        Aligner.of_align_eq_aligned halign
      obtain ⟨same, hsame, hversions⟩ := pointwise hsource ask hthere
        (barrier.aligner.restricted combined).authorityCoordinates
      rw [hanswer] at hsame
      cases hsame
      have hstated := Response.rawProjectVersion_ofVersions fun project hproject =>
        hversions project (Request.mem_authorityCoordinates_of_project hproject)
      rw [Aligner.projects_restricted] at hstated
      rw [hrequest] at hstage
      rw [hsource, ← hstated, ← Aligner.projects_restricted barrier.aligner]
      exact newProjectVersion_of_stageResponse counts hadjusted hstage

end Barrier

/-! ### Runs of a described build -/

namespace BuildDescription

variable {build : BuildDescription} {tree : ModuleTree} {registrations : List Registration}

/-- The barrier of a described build is a new one for its tree, seeded with what is there. -/
theorem of_barrier_eq_ok {settings : Settings} {authority : Option Authority}
    {previous : Option ModuleTree} {barrier : Barrier} (htree : build.toTree = .ok tree)
    (h : build.barrier settings authority previous = .ok barrier) :
    ∃ aligner fresh, settings.aligner authority previous = .ok aligner ∧
      Barrier.new tree aligner settings.barrierPolicy = .ok fresh ∧
      barrier = fresh.seededWith previous := by
  rw [BuildDescription.barrier, htree] at h
  cases haligner : settings.aligner authority previous with
  | error error => rw [haligner] at h; cases h
  | ok aligner =>
    rw [haligner] at h
    obtain ⟨fresh, hfresh, rfl⟩ := of_map_eq_ok h
    refine ⟨aligner, fresh, rfl, hfresh, ?_⟩
    cases previous with
    | none => rfl
    | some earlier => rfl

namespace Made

variable {session : Session} {entries : List Registered}

/-- Once every module has registered, the paths of the tree mean themselves. -/
theorem paths_self (made : build.Made tree registrations)
    (registers : session.Registers tree entries) (hsession : session.registrations = registrations) :
    ∀ path ∈ tree.paths, tree.resolve path = .ok path := by
  intro path hpath
  rw [← registers.paths] at hpath
  obtain ⟨entry, hentry, rfl⟩ := List.mem_map.1 hpath
  obtain ⟨call, -, hcall, hmeant⟩ := registers.calls entry hentry
  rw [hsession] at hcall
  -- What the module registers by is listed, so it means what is left of it when it is trimmed.
  have hlisted : entry.2.module ∈ tree.paths := by
    rw [made.paths.mem_iff, ← made.modules]
    exact List.mem_map_of_mem (List.mem_of_getElem? hcall)
  obtain ⟨keys, info, hkeys, -⟩ := made.built.wellKeyed.of_mem_paths hlisted
  have hpathlike := Option.isSome_of_eq_some hkeys
  have htrimmed := ModuleTree.trim_eq_of_resolve hpathlike hmeant
  rw [ModuleTree.resolve_self_iff made.built.wellKeyed (by rwa [← registers.paths]), htrimmed]
  exact Text.trim_trim _

/-- Every module registers by its path. -/
theorem module_eq (made : build.Made tree registrations)
    (registers : session.Registers tree entries) (hsession : session.registrations = registrations)
    {entry : Registered} (hentry : entry ∈ entries) :
    entry.2 ∈ registrations ∧ entry.2.module = entry.1 := by
  obtain ⟨call, -, hcall, hmeant⟩ := registers.calls entry hentry
  rw [hsession] at hcall
  have hmem := List.mem_of_getElem? hcall
  have hlisted : entry.2.module ∈ tree.paths := by
    rw [made.paths.mem_iff, ← made.modules]
    exact List.mem_map_of_mem hmem
  rw [made.paths_self registers hsession _ hlisted] at hmeant
  exact ⟨hmem, Except.ok.inj hmeant⟩

/-- Whenever a described build is finished, the same registrations have been accepted. -/
theorem registered_eq (made : build.Made tree registrations)
    (registers : session.Registers tree entries) (hsession : session.registrations = registrations)
    {again : Session} {others : List Registered} (reregisters : again.Registers tree others)
    (hagain : again.registrations = registrations) : entries = others := by
  have hdistinct : (registrations.map Registration.module).Nodup := by
    rw [made.modules]
    exact made.paths.nodup_iff.1 (ModuleTree.nodup_paths made.built.wellKeyed)
  rw [← List.forall₂_eq_eq_eq]
  refine forall₂_of_map_eq (registers.paths.trans reregisters.paths.symm) ?_
  intro entry hentry other hother hpath
  obtain ⟨hmem, hmodule⟩ := made.module_eq registers hsession hentry
  obtain ⟨hmem', hmodule'⟩ := made.module_eq reregisters hagain hother
  exact Prod.ext hpath (List.inj_on_of_nodup_map hdistinct hmem hmem'
    (hmodule.trans (hpath.trans hmodule'.symm)))

end Made

end BuildDescription

/-- What a barrier keeps of a registration has the coordinate that was handed in. -/
theorem Barrier.outline_sift (barrier : Barrier) (modules : List Registered) :
    (modules.map barrier.sift).map Registered.outline = modules.map Registered.outline := by
  rw [List.map_map]
  rfl

namespace Session

variable {settings : Settings} {build : BuildDescription} {tree : ModuleTree}
  {registrations : List Registration} {authority : Option Authority}
  {answer : Coordinate → Option String} {previous : Option ModuleTree} {start : Barrier}
  {session : Session} {handle : AlignmentHandle} {result : ModuleTree}

/-- A finished run of a described build has the version that its settings compute from the
registrations of all modules. -/
theorem computed_of_completed (made : build.Made tree registrations)
    (htree : build.toTree = .ok tree)
    (pointwise : ∀ known ∈ authority, Authority.Pointwise known answer)
    (hstart : build.barrier settings authority previous = .ok start) (schedule : List Nat)
    (hsession : session = (Session.start start registrations).run schedule)
    (hhandle : session.barrier.finishedHandle = .ok handle) :
    session.Registers tree (session.registered tree.paths) ∧
      ∃ projects declared,
        projectCoordinates? settings.barrierPolicy (session.registered tree.paths) = some projects ∧
        projectVersion? (session.registered tree.paths) = some declared ∧
        (settings.projectVersionSettings previous).compute?
          (settings.source.statedVersion? answer projects) declared
            = some handle.newProjectVersion := by
  obtain ⟨aligner, fresh, haligner, hfresh, rfl⟩ := BuildDescription.of_barrier_eq_ok htree hstart
  have opened := Barrier.opened_seededWith hfresh previous
  obtain ⟨houtcome, -, registers⟩ := outcome_of_completed made.built opened registrations schedule
    hsession (Barrier.of_finishedHandle_eq_ok hhandle)
  refine ⟨registers, ?_⟩
  obtain ⟨hsource, hauthority, hcounts⟩ := Settings.counts_aligner haligner
  have hsame : (fresh.seededWith previous).aligner = aligner := by rw [opened.eq]
  rw [← hsame] at hsource hcounts hauthority
  obtain ⟨projects, declared, hprojects, hdeclared, hcomputed⟩ :=
    Barrier.newProjectVersion_of_outcome hcounts
      (fun hrest known hknown => pointwise known (by
        rwa [hauthority (hsource.symm.trans hrest)] at hknown)) houtcome
  rw [hsource] at hcomputed
  refine ⟨projects, declared, ?_, ?_, hcomputed⟩
  · obtain ⟨versions, -, hpolicy⟩ := Barrier.policy_of_new hfresh
    rw [projectCoordinates?_congr _ (Barrier.outline_sift _ _), Barrier.policy_seededWith,
      hpolicy] at hprojects
    exact hprojects
  · rwa [projectVersion?_congr (Barrier.outline_sift _ _)] at hdeclared

/-- The tree of a finished run has the new version of the build, unless the configuration gives the
root a version. -/
theorem version_of_completed (made : build.Made tree registrations)
    (htree : build.toTree = .ok tree) (hmodification : settings.versionModification = true)
    (hroot : ∀ entry ∈ settings.moduleVersions, tree.resolve entry.1 ≠ .ok ModulePath.root)
    (hstart : build.barrier settings authority previous = .ok start) (schedule : List Nat)
    (hsession : session = (Session.start start registrations).run schedule)
    (hhandle : session.barrier.finishedHandle = .ok handle)
    (hmodel : session.barrier.finishedModel = .ok result)
    (registers : session.Registers tree (session.registered tree.paths)) :
    result.info.version = some handle.newProjectVersion := by
  obtain ⟨aligner, fresh, -, hfresh, rfl⟩ := BuildDescription.of_barrier_eq_ok htree hstart
  have hself := made.paths_self registers (hsession ▸ run_registrations_eq _ _)
  obtain ⟨-, published⟩ := published_of_completed made.built hself hfresh previous registrations
    schedule hsession hhandle hmodel
  have hnone : tree.lastMeaning? settings.moduleVersions ModulePath.root = none := by
    rw [ModuleTree.lastMeaning?, List.find?_eq_none.2, Option.map_none]
    intro entry hentry
    have hne := hroot entry (List.mem_reverse.1 hentry)
    cases hmeant : tree.resolve entry.1 with
    | error error => simp [Except.toOption]
    | ok path =>
      rw [hmeant] at hne
      simpa [Except.toOption] using fun heq => hne (congrArg Except.ok heq)
  obtain ⟨info, children⟩ := result
  have hversions := published.versions
  rw [ModuleTree.nodes_node] at hversions
  obtain ⟨entry, others, gets, -, -⟩ := List.forall₂_cons_right_iff.1 hversions
  have hversion := gets.version
  have hpath : entry.1 = ModulePath.root := gets.path
  simp only [Settings.barrierPolicy, hmodification, if_true, hpath, hnone, Option.getD_none]
    at hversion
  exact hversion

/-- In the run after a finished one, with the tree of that one, the version of the build has the same
base and the same suffix, and the next number. -/
theorem counted_of_completed (valid : settings.validate = .ok ())
    (hmodification : settings.versionModification = true) (hfree : settings.versionOverride = none)
    (htree : build.toTree = .ok tree) (hregistrations : build.registrations = .ok registrations)
    (hlines : ∀ registration ∈ registrations, '\n' ∉ registration.coordinate.version.toList)
    (pointwise : ∀ known ∈ authority, Authority.Pointwise known answer)
    (hanswers : ∀ coordinate, ∀ version ∈ answer coordinate, '\n' ∉ version.toList)
    (hroot : ∀ entry ∈ settings.moduleVersions, tree.resolve entry.1 ≠ .ok ModulePath.root)
    (hstart : build.barrier settings authority previous = .ok start) (schedule : List Nat)
    (hsession : session = (Session.start start registrations).run schedule)
    (hhandle : session.barrier.finishedHandle = .ok handle)
    (hmodel : session.barrier.finishedModel = .ok result) {restart : Barrier}
    (hrestart : build.barrier settings authority (some result) = .ok restart)
    (reschedule : List Nat) {again : Session}
    (hagain : again = (Session.start restart registrations).run reschedule)
    {next : AlignmentHandle} (hnext : again.barrier.finishedHandle = .ok next) :
    ∃ base number mark, (mark = "" ∨ mark = "-SNAPSHOT") ∧
      Version.Counted settings.suffix base mark number handle.newProjectVersion ∧
      Version.Counted settings.suffix base mark (number + 1) next.newProjectVersion := by
  have made := BuildDescription.made htree hregistrations
  obtain ⟨registers, projects, declared, hprojects, hdeclared, hfirst⟩ :=
    computed_of_completed made htree pointwise hstart schedule hsession hhandle
  obtain ⟨reregisters, projects', declared', hprojects', hdeclared', hsecond⟩ :=
    computed_of_completed made htree pointwise hrestart reschedule hagain hnext
  have hkept : session.registrations = registrations := hsession ▸ run_registrations_eq _ _
  have hrekept : again.registrations = registrations := hagain ▸ run_registrations_eq _ _
  rw [← made.registered_eq registers hkept reregisters hrekept] at hprojects' hdeclared'
  obtain rfl : projects = projects' := Option.some.inj (hprojects.symm.trans hprojects')
  obtain rfl : declared = declared' := Option.some.inj (hdeclared.symm.trans hdeclared')
  have hversion := version_of_completed made htree hmodification hroot hstart schedule hsession
    hhandle hmodel registers
  have hline : '\n' ∉ ((settings.source.statedVersion? answer projects).getD declared).toList := by
    cases hstated : settings.source.statedVersion? answer projects with
    | some version =>
      obtain ⟨project, hanswer⟩ := DependencySource.exists_of_statedVersion? hstated
      exact hanswers project version hanswer
    | none =>
      obtain ⟨entry, hentry, hcoordinate⟩ := List.mem_map.1 (List.mem_of_find?_eq_some hdeclared)
      rw [Option.getD_none, ← hcoordinate]
      exact hlines _ (made.module_eq registers hkept hentry).1
  have hprevious : settings.projectVersionSettings (some result)
      = { settings.projectVersionSettings previous with
          previousVersion := some handle.newProjectVersion } := by
    simp only [Settings.projectVersionSettings, Option.bind_some, hversion]
  rw [hprevious] at hsecond
  -- What is computed first is the previous version when it is computed again.
  have hsuffix := Settings.suffix_ne_empty_of_valid valid
  exact @ProjectVersionSettings.counted_of_compute? (settings.projectVersionSettings previous)
    (settings.source.statedVersion? answer projects) declared hmodification hfree hsuffix hline
    handle.newProjectVersion next.newProjectVersion hfirst hsecond

end Session

namespace SmallBuild

def plainBarrier (settings : Settings) (authority : Option Authority)
    (previous : Option ModuleTree) : Barrier :=
  Barrier.seededWith
    { aligner := (Aligner.withAdjustment { authority, source := settings.source }
        (.projectVersion (settings.projectVersionSettings previous))).withAdjustment .pinDynamic
      policy := settings.barrierPolicy
      order := [":", ":core"]
      remaining := [":", ":core"]
      tree } previous

/-- An authority that states a version for the application, on another base than the declared one. -/
def stating : NewVersions := [(⟨"org.example", "app", "1.0"⟩, "3.0-redhat-00041-SNAPSHOT")]

def pinnedModule : Settings :=
  { authority := some "versions.toml", preserveSnapshot := true,
    moduleVersions := [(":core", "7.0")] }

def pinnedRoot : Settings := { source := .disabled, moduleVersions := [(":", "9.9")] }

theorem barrier_pinnedModule (previous : Option ModuleTree) :
    (described ":core").barrier pinnedModule (some fun _ => .ok stating) previous
      = .ok (plainBarrier pinnedModule (some fun _ => .ok stating) previous) := by
  rw [BuildDescription.barrier, toTree_described]
  cases previous <;> rfl

theorem barrier_pinnedRoot (previous : Option ModuleTree) :
    (described ":core").barrier pinnedRoot none previous
      = .ok (plainBarrier pinnedRoot none previous) := by
  rw [BuildDescription.barrier, toTree_described]
  cases previous <;> rfl

end SmallBuild

open SmallBuild in
/-- The version counts on from what the authority states, and keeps its snapshot marker. The module
has a version of its own. -/
theorem Session.counted_of_stated_version :
    let start := plainBarrier pinnedModule (some fun _ => .ok stating) none
    let session := (Session.start start (handedIn ":core")).run [0, 1, 0, 1, 1, 1]
    let restart := plainBarrier pinnedModule (some fun _ => .ok stating) (some session.barrier.tree)
    let again := (Session.start restart (handedIn ":core")).run [1, 1, 0, 0, 0, 0]
    pinnedModule.validate = .ok () ∧
      session.barrier.finishedHandle.map AlignmentHandle.newProjectVersion
        = .ok "3.0-redhat-00042-SNAPSHOT" ∧
      again.barrier.finishedHandle.map AlignmentHandle.newProjectVersion
        = .ok "3.0-redhat-00043-SNAPSHOT" ∧
      ∃ base number mark, (mark = "" ∨ mark = "-SNAPSHOT") ∧
        Version.Counted "redhat" base mark number "3.0-redhat-00042-SNAPSHOT" ∧
        Version.Counted "redhat" base mark (number + 1) "3.0-redhat-00043-SNAPSHOT" := by
  intro start session restart again
  have hphase : session.barrier.phase = .completed ⟨"3.0-redhat-00042-SNAPSHOT", false, []⟩ := by
    decide +kernel
  have hnext : again.barrier.phase = .completed ⟨"3.0-redhat-00043-SNAPSHOT", false, []⟩ := by
    decide +kernel
  obtain ⟨hhandle, hmodel⟩ := Barrier.finished_of_completed hphase
  obtain ⟨hhandle', -⟩ := Barrier.finished_of_completed hnext
  have hregistrations : (described ":core").registrations = .ok (handedIn ":core") := by
    decide +kernel
  have pointwise : ∀ known ∈ some fun _ => Except.ok stating,
      Authority.Pointwise known (NewVersions.find? · stating) := by
    rintro known ⟨⟩ asked
    exact ⟨stating, rfl, fun _ _ => rfl⟩
  have hanswers : ∀ coordinate, ∀ version ∈ NewVersions.find? coordinate stating,
      '\n' ∉ version.toList := by
    intro coordinate version hanswer
    rw [stating, NewVersions.find?] at hanswer
    split at hanswer
    · cases hanswer
      decide
    · cases hanswer
  have hroot : ∀ entry ∈ pinnedModule.moduleVersions, tree.resolve entry.1 ≠ .ok ":" := by
    decide +kernel
  refine ⟨by decide, by rw [hhandle]; rfl, by rw [hhandle']; rfl, ?_⟩
  exact counted_of_completed (by decide) rfl rfl toTree_described hregistrations (by decide)
    pointwise hanswers hroot (barrier_pinnedModule none) [0, 1, 0, 1, 1, 1] rfl hhandle hmodel
    (barrier_pinnedModule (some session.barrier.tree)) [1, 1, 0, 0, 0, 0] rfl hhandle'

open SmallBuild in
/-- Where the configuration gives the root a version, the next run computes the same version again. -/
theorem Session.recounted_of_root_version :
    let first := ((plainBarrier pinnedRoot none none).registerAll (handedIn ":core")).1
    let second :=
      ((plainBarrier pinnedRoot none (some first.tree)).registerAll (handedIn ":core")).1
    pinnedRoot.validate = .ok () ∧
      pinnedRoot.versionModification = true ∧ pinnedRoot.versionOverride = none ∧
      (described ":core").registrations = .ok (handedIn ":core") ∧
      (∀ previous, (described ":core").barrier pinnedRoot none previous
        = .ok (plainBarrier pinnedRoot none previous)) ∧
      first.finishedHandle.map AlignmentHandle.newProjectVersion = .ok "1.0-redhat-00001" ∧
      second.finishedHandle.map AlignmentHandle.newProjectVersion = .ok "1.0-redhat-00001" ∧
      ∀ base number mark, Version.Counted "redhat" base mark number "1.0-redhat-00001" →
        ¬ Version.Counted "redhat" base mark (number + 1) "1.0-redhat-00001" := by
  refine ⟨by decide, rfl, rfl, by decide +kernel, barrier_pinnedRoot, ?_, ?_, ?_⟩
  · decide +kernel
  · decide +kernel
  · intro base number mark hcounted hnext
    exact absurd (hcounted.number_eq hnext) (Nat.ne_of_lt (Nat.lt_succ_self number))

end BuildAlignment
