import BuildAlignment.Proofs.Alignment.Assembly
import BuildAlignment.Proofs.Alignment.Overrides
import BuildAlignment.Proofs.Barrier.Completion
import BuildAlignment.Proofs.Barrier.Recorded
import BuildAlignment.Proofs.Barrier.Staged

/-!
# The replacements of a completed build

What a module gets is known from the registrations, the earlier tree, the exclusions and adjustments
and the answer of the authority. Nothing else has a say in it.

* `BuildInputs` holds all of that. `BuildInputs.kept` are the dependencies that are aligned, and
  `BuildInputs.version?` is the version that one of them gets.
* `BuildInputs.replacements` and `BuildInputs.unaligned?` are what a module gets and what it misses.
* `BuildInputs.known_seededWith`: a seeded barrier knows what the earlier tree holds.
* `BuildInputs.modules_without` and `BuildInputs.alignedVersion?_eq`: a barrier requests the kept
  dependencies, and its response gives them these versions.
* `Session.replacements_of_completed`: every module of a completed build gets its replacements.
-/

namespace BuildAlignment

/-- All that decides about the replacements of a build. -/
structure BuildInputs where
  /-- The registrations as they came in, under the paths of their modules. -/
  modules : List Registered
  /-- The tree of an earlier alignment. -/
  previous : Option ModuleTree
  source : DependencySource
  exclusions : List Exclusion
  /-- The adjustments, in the order in which they came. -/
  adjustments : List Adjustment
  /-- The answer of the authority. -/
  versions : NewVersions

namespace BuildInputs

/-! ### Dependencies -/

/-- What the earlier tree holds at a path for a dependency. -/
def recorded? (inputs : BuildInputs) (path : String) (dependency : Dependency) :
    Option Coordinate :=
  inputs.previous.bind fun earlier => earlier.recorded? path dependency.declared

/-- The dependency of the module at a path, resolved to what was recorded if that has another
version. -/
def renewed (inputs : BuildInputs) (path : String) (dependency : Dependency) : Dependency :=
  { dependency with
    resolved := dependency.resolved.map fun resolved =>
      resolved.renewed (inputs.recorded? path dependency) }

/-- Whether a dependency of an owner is aligned. One that the build itself makes is not, and neither
is one that some exclusion covers. -/
def keeps (inputs : BuildInputs) (owner : Coordinate) (dependency : Dependency) : Bool :=
  dependency.takesPart && !(internalRefs inputs.modules).contains dependency.declared.ref &&
    !inputs.exclusions.any fun exclusion => exclusion.covers dependency.declared owner

/-- The dependencies of a module that are aligned. -/
def kept (inputs : BuildInputs) (entry : Registered) : List Dependency :=
  (entry.2.dependencies.filter (inputs.keeps entry.2.coordinate)).map (inputs.renewed entry.1)

/-! ### Versions -/

/-- The version of the first override that covers a dependency and gives one. Later adjustments come
first. -/
def overridden? (inputs : BuildInputs) (coordinate owner : Coordinate) : Option String :=
  ((inputs.adjustments.filterMap Adjustment.layer?).reverse.flatten.find? fun entry =>
    entry.2 != "" && entry.1.covers coordinate owner).map Prod.snd

/-- The version in the answer, unless that is blank. -/
def answered? (inputs : BuildInputs) (coordinate : Coordinate) : Option String :=
  (inputs.versions.find? coordinate).filter fun version => !Text.isBlank version

/-- A dynamic dependency of some module comes to this coordinate, and such dependencies are
pinned. -/
def pinsDynamic (inputs : BuildInputs) (coordinate : Coordinate) : Bool :=
  inputs.adjustments.any Adjustment.pinsDynamic && inputs.modules.any fun entry =>
    (inputs.kept entry).any fun dependency =>
      dependency.isDynamic && dependency.resolved == some coordinate

/-- A dependency of some module comes to this coordinate, which was recorded for it. It does not
matter whether that dependency is aligned. Where the source is disabled nothing recorded counts. -/
def pinsRecorded (inputs : BuildInputs) (coordinate : Coordinate) : Bool :=
  inputs.source == .rest && inputs.modules.any fun entry =>
    entry.2.dependencies.any fun dependency =>
      dependency.takesPart && (inputs.renewed entry.1 dependency).resolved == some coordinate &&
        inputs.recorded? entry.1 dependency == some coordinate

/-- The version that a dependency of an owner gets: an override, else the answer, else its own
version if it is pinned. -/
def version? (inputs : BuildInputs) (coordinate owner : Coordinate) : Option String :=
  match inputs.overridden? coordinate owner with
  | some version => some version
  | none =>
    match inputs.answered? coordinate with
    | some version => some version
    | none =>
      if inputs.pinsDynamic coordinate || inputs.pinsRecorded coordinate then
        some coordinate.version
      else none

/-! ### What a module gets -/

/-- The replacements of a module. Of several declarations with one text form the last one that is
replaced counts. -/
def replacements (inputs : BuildInputs) (entry : Registered) : Keyed Coordinate :=
  Keyed.ofEntries <| (inputs.kept entry).filterMap <|
    Dependency.replacement? fun coordinate => inputs.version? coordinate entry.2.coordinate

/-- The coordinates of a module that get no version. -/
def missing (inputs : BuildInputs) (entry : Registered) : List Coordinate :=
  ((inputs.kept entry).filterMap Dependency.resolved).filter fun coordinate =>
    (inputs.version? coordinate entry.2.coordinate).isNone

/-- What is told about a module that misses something. -/
def unaligned? (inputs : BuildInputs) (entry : Registered) : Option (List Coordinate) :=
  if inputs.missing entry = [] then none else some (inputs.missing entry)

/-- Every module of a tree has its replacements and no others, and what it misses is told. -/
def Gives (inputs : BuildInputs) (result : ModuleTree) (handle : AlignmentHandle) : Prop :=
  ∀ entry ∈ inputs.modules, ∃ found, result.find entry.1 = .ok found ∧
    found.info.aligned = inputs.replacements entry ∧
    handle.nonAligned.find? entry.1 = inputs.unaligned? entry

variable {inputs : BuildInputs} {barrier : Barrier}

/-! ### Dependencies that are aligned -/

theorem takesPart_of_keeps {dependency : Dependency} {owner : Coordinate}
    (h : inputs.keeps owner dependency = true) : dependency.takesPart = true := by
  rw [keeps, Bool.and_eq_true, Bool.and_eq_true] at h
  exact h.1.1

theorem exists_resolved_of_keeps {dependency : Dependency} {owner : Coordinate}
    (h : inputs.keeps owner dependency = true) :
    ∃ resolved, dependency.resolved = some resolved := by
  have htakes := takesPart_of_keeps h
  rw [Dependency.takesPart, Bool.and_eq_true] at htakes
  exact Option.isSome_iff_exists.1 htakes.2

theorem mem_kept {entry : Registered} {dependency : Dependency}
    (hlisted : dependency ∈ entry.2.dependencies)
    (hkept : inputs.keeps entry.2.coordinate dependency = true) :
    inputs.renewed entry.1 dependency ∈ inputs.kept entry :=
  List.mem_map_of_mem (List.mem_filter.2 ⟨hlisted, hkept⟩)

/-- What an aligned dependency comes to is pinned if it was recorded for it. -/
theorem pinsRecorded_of_renewed {entry : Registered} {dependency : Dependency}
    {recorded : Coordinate} (hsource : inputs.source = .rest) (hentry : entry ∈ inputs.modules)
    (hlisted : dependency ∈ entry.2.dependencies)
    (hkept : inputs.keeps entry.2.coordinate dependency = true)
    (hfound : inputs.recorded? entry.1 dependency = some recorded)
    (hrenewed : (inputs.renewed entry.1 dependency).resolved = some recorded) :
    inputs.pinsRecorded recorded = true := by
  simp only [pinsRecorded, hsource, beq_self_eq_true, Bool.true_and, List.any_eq_true]
  refine ⟨entry, hentry, dependency, hlisted, ?_⟩
  rw [takesPart_of_keeps hkept, hrenewed, hfound]
  simp

theorem version?_eq_none_iff {coordinate owner : Coordinate} :
    inputs.version? coordinate owner = none ↔ inputs.overridden? coordinate owner = none ∧
      inputs.answered? coordinate = none ∧
      ¬ (inputs.pinsDynamic coordinate || inputs.pinsRecorded coordinate) = true := by
  rw [version?]
  cases inputs.overridden? coordinate owner with
  | some version => simp
  | none =>
    cases inputs.answered? coordinate with
    | some version => simp
    | none => simp

/-- What is pinned has a version, at least its own. -/
theorem version?_of_pinned {coordinate : Coordinate}
    (hpinned : (inputs.pinsDynamic coordinate || inputs.pinsRecorded coordinate) = true)
    (owner : Coordinate) : inputs.version? coordinate owner
      = some (((inputs.overridden? coordinate owner).or (inputs.answered? coordinate)).getD
          coordinate.version) := by
  rw [version?, if_pos hpinned]
  cases inputs.overridden? coordinate owner with
  | some version => rfl
  | none =>
    cases inputs.answered? coordinate with
    | some version => rfl
    | none => rfl

/-! ### Requests -/

/-- A barrier knows what the earlier tree holds. -/
def Known (inputs : BuildInputs) (recorded : Recorded) : Prop :=
  ∀ entry ∈ inputs.modules, ∀ dependency : Dependency,
    (recorded.at entry.1).find? dependency.declared.display = inputs.recorded? entry.1 dependency

theorem Known.seed_eq (known : inputs.Known barrier.recorded) {entry : Registered}
    (hentry : entry ∈ inputs.modules) (dependency : Dependency) :
    dependency.seed (barrier.recorded.at entry.1) = inputs.renewed entry.1 dependency := by
  rw [Dependency.seed_eq, known entry hentry dependency]
  rfl

/-- What a barrier keeps of a registration are the dependencies that take part, renewed. -/
theorem Known.sift_eq (known : inputs.Known barrier.recorded) {entry : Registered}
    (hentry : entry ∈ inputs.modules) :
    barrier.sift entry = (entry.1, { entry.2 with
      dependencies := (entry.2.dependencies.filter Dependency.takesPart).map
        (inputs.renewed entry.1) }) := by
  have hseed : (entry.2.dependencies.filter Dependency.takesPart).map
        (Dependency.seed (barrier.recorded.at entry.1))
      = (entry.2.dependencies.filter Dependency.takesPart).map (inputs.renewed entry.1) :=
    List.map_congr_left fun dependency _ => known.seed_eq hentry dependency
  rw [Barrier.sift, hseed]

/-- What is requested for a module. -/
def request (inputs : BuildInputs) (entry : Registered) : ModuleRequest :=
  ⟨entry.1, entry.2.coordinate, inputs.kept entry⟩

/-- After the exclusions the dependencies that are aligned are left, as the barrier has seeded
them. -/
theorem sifted_without {policy : BarrierPolicy} {combined : Request}
    (h : combinedRequest policy (inputs.modules.map barrier.sift) = .ok combined) :
    (combined.without inputs.exclusions).modules = inputs.modules.map fun entry =>
      ⟨entry.1, entry.2.coordinate,
        (entry.2.dependencies.filter (inputs.keeps entry.2.coordinate)).map
          (Dependency.seed (barrier.recorded.at entry.1))⟩ := by
  have hinternal : internalRefs (inputs.modules.map barrier.sift) = internalRefs inputs.modules :=
    List.map_map
  rw [Request.without, modules_of_combinedRequest h, hinternal]
  simp only [List.map_map]
  refine List.map_congr_left ?_
  intro entry _
  have hkept : (((entry.2.dependencies.filter Dependency.takesPart).map
        (Dependency.seed (barrier.recorded.at entry.1))).filter fun dependency =>
          !(internalRefs inputs.modules).contains dependency.declared.ref).filter (fun dependency =>
            !inputs.exclusions.any fun exclusion =>
              exclusion.covers dependency.declared entry.2.coordinate)
      = (entry.2.dependencies.filter (inputs.keeps entry.2.coordinate)).map
          (Dependency.seed (barrier.recorded.at entry.1)) := by
    rw [List.filter_map, List.filter_map, List.filter_filter, List.filter_filter]
    congr 1
    refine List.filter_congr ?_
    intro dependency _
    simp only [Function.comp_apply, Dependency.declared_seed, keeps]
    cases dependency.takesPart with
    | false => simp
    | true => rw [Bool.and_true, Bool.true_and, Bool.and_comm]
  rw [Function.comp_apply, Function.comp_apply, Barrier.sift, moduleRequest]
  simp only [hkept]

/-- After the exclusions the kept dependencies are left. -/
theorem modules_without (known : inputs.Known barrier.recorded) {policy : BarrierPolicy}
    {combined : Request}
    (h : combinedRequest policy (inputs.modules.map barrier.sift) = .ok combined) :
    (combined.without inputs.exclusions).modules = inputs.modules.map inputs.request := by
  rw [sifted_without h]
  refine List.map_congr_left ?_
  intro entry hentry
  rw [request, kept]
  refine congrArg (ModuleRequest.mk _ _) (List.map_congr_left ?_)
  intro dependency _
  exact known.seed_eq hentry dependency

/-- A barrier of a built tree that was seeded knows what the earlier tree holds. -/
theorem known_seededWith {tree : ModuleTree} {aligner : Aligner} {policy : BarrierPolicy}
    {fresh : Barrier} (built : tree.Built)
    (hprevious : ∀ earlier ∈ inputs.previous, ∀ path ∈ earlier.paths,
      earlier.resolve path = .ok path)
    (made : Barrier.new tree aligner policy = .ok fresh)
    (hpaths : inputs.modules.map Prod.fst = tree.paths) :
    inputs.Known (fresh.seededWith inputs.previous).recorded := by
  intro entry hentry dependency
  have hpath : entry.1 ∈ tree.paths := by
    rw [← hpaths]
    exact List.mem_map_of_mem hentry
  obtain ⟨keys, -, hkeys, hread, -⟩ := built.wellKeyed.of_mem_paths hpath
  exact Barrier.find?_recorded_seededWith made hprevious hkeys hread dependency.declared

/-! ### Pinned coordinates -/

theorem mem_dynamicCoordinates {request : Request} {coordinate : Coordinate} :
    coordinate ∈ request.dynamicCoordinates ↔ ∃ entry ∈ request.modules,
      ∃ dependency ∈ entry.dependencies,
        dependency.isDynamic = true ∧ dependency.resolved = some coordinate := by
  rw [Request.dynamicCoordinates, List.mem_eraseDups, List.mem_filterMap]
  constructor
  · intro hfound
    obtain ⟨dependency, hmem, hresolved⟩ := hfound
    obtain ⟨entry, hentry, hdynamic⟩ := List.mem_flatMap.1 hmem
    obtain ⟨hlisted, hdynamic⟩ := List.mem_filter.1 hdynamic
    exact ⟨entry, hentry, dependency, hlisted, hdynamic, hresolved⟩
  · intro hfound
    obtain ⟨entry, hentry, dependency, hlisted, hdynamic, hresolved⟩ := hfound
    refine ⟨dependency, List.mem_flatMap.2 ⟨entry, hentry, ?_⟩, hresolved⟩
    exact List.mem_filter.2 ⟨hlisted, hdynamic⟩

theorem Known.isRecorded_eq (known : inputs.Known barrier.recorded) {entry : Registered}
    (hentry : entry ∈ inputs.modules) (dependency : Dependency) :
    (inputs.renewed entry.1 dependency).isRecorded (barrier.recorded.at entry.1)
      = ((inputs.renewed entry.1 dependency).resolved.isSome &&
        inputs.recorded? entry.1 dependency == (inputs.renewed entry.1 dependency).resolved) := by
  rw [Dependency.isRecorded, ← known entry hentry dependency]
  rfl

/-- A barrier pins what was recorded for the dependencies that take part. -/
theorem Known.mem_seeds (known : inputs.Known barrier.recorded)
    (hsource : barrier.aligner.source = inputs.source) {coordinate : Coordinate} :
    coordinate ∈ barrier.seeds (inputs.modules.map barrier.sift)
      ↔ inputs.pinsRecorded coordinate = true := by
  rw [Barrier.seeds, hsource, pinsRecorded]
  cases inputs.source with
  | disabled => simp
  | rest =>
    simp only [beq_self_eq_true, Bool.true_and, List.any_eq_true, seededCoordinates,
      List.mem_flatMap]
    constructor
    · intro hfound
      obtain ⟨sifted, hsifted, hmem⟩ := hfound
      obtain ⟨entry, hentry, rfl⟩ := List.mem_map.1 hsifted
      obtain ⟨found, hfound, hresolved⟩ := List.mem_filterMap.1 hmem
      obtain ⟨hlisted, hrecorded⟩ := List.mem_filter.1 hfound
      rw [known.sift_eq hentry] at hlisted hrecorded
      obtain ⟨dependency, hdependency, rfl⟩ := List.mem_map.1 hlisted
      obtain ⟨hregistered, htakes⟩ := List.mem_filter.1 hdependency
      rw [known.isRecorded_eq hentry, hresolved] at hrecorded
      refine ⟨entry, hentry, dependency, hregistered, ?_⟩
      rw [htakes, hresolved]
      simpa using hrecorded
    · intro hfound
      obtain ⟨entry, hentry, dependency, hregistered, hpinned⟩ := hfound
      simp only [Bool.and_eq_true, beq_iff_eq] at hpinned
      obtain ⟨⟨htakes, hresolved⟩, hrecorded⟩ := hpinned
      refine ⟨barrier.sift entry, List.mem_map_of_mem hentry, ?_⟩
      rw [known.sift_eq hentry]
      refine List.mem_filterMap.2 ⟨inputs.renewed entry.1 dependency, ?_, hresolved⟩
      refine List.mem_filter.2 ⟨?_, ?_⟩
      · exact List.mem_map_of_mem (List.mem_filter.2 ⟨hregistered, htakes⟩)
      · rw [known.isRecorded_eq hentry, hresolved, hrecorded]
        simp

/-! ### The version of a dependency -/

/-- The newest layer that speaks about a dependency gives its version. -/
theorem overriddenVersion?_eq {response : Response}
    (hlayers : response.layers = inputs.adjustments.filterMap Adjustment.layer?)
    (coordinate owner : Coordinate) :
    response.overriddenVersion? coordinate owner = inputs.overridden? coordinate owner := by
  rw [Response.overriddenVersion?_eq, hlayers]
  rfl

/-- A response with these overrides, answers and pins gives every dependency its version. -/
theorem alignedVersion?_eq {response : Response}
    (hlayers : response.layers = inputs.adjustments.filterMap Adjustment.layer?)
    (hversions : response.versions = inputs.versions)
    (hpinned : ∀ coordinate, coordinate ∈ response.pinned ↔
      inputs.pinsDynamic coordinate = true ∨ inputs.pinsRecorded coordinate = true)
    (coordinate owner : Coordinate) :
    response.alignedVersion? coordinate owner = inputs.version? coordinate owner := by
  have hpin : response.pinnedVersion? coordinate
      = if inputs.pinsDynamic coordinate || inputs.pinsRecorded coordinate then
          some coordinate.version else none := by
    rw [Response.pinnedVersion?]
    simp only [List.contains_iff_mem, hpinned, Bool.or_eq_true]
  rw [Response.alignedVersion?, version?, overriddenVersion?_eq hlayers,
    Response.answeredVersion?, hversions, hpin]
  rfl

/-! ### What is written -/

variable {authority : Option Authority} {combined : Request} {answer adjusted : Response}
  {result : ModuleTree} {handle : AlignmentHandle}

/-- The response that is written gives every dependency its version. -/
theorem Known.alignedVersion?_of_success (known : inputs.Known barrier.recorded)
    (haligner : barrier.aligner
      = .assembled authority inputs.source inputs.exclusions inputs.adjustments)
    (success : barrier.Success (inputs.modules.map barrier.sift) combined answer adjusted result
      handle) (hversions : answer.versions = inputs.versions) (coordinate owner : Coordinate) :
    (adjusted.pin (barrier.seeds (inputs.modules.map barrier.sift))).alignedVersion? coordinate
      owner = inputs.version? coordinate owner := by
  have hsource : barrier.aligner.source = inputs.source := by
    rw [haligner, Aligner.assembled_eq]
  have hchange := success.change
  rw [haligner] at hchange
  have hadjusted := Aligner.adjusted_assembled hchange
  rw [Aligner.restricted_assembled] at hadjusted
  obtain ⟨hlayers, hpinned⟩ := success.plain
  have hdynamic : ∀ coordinate, coordinate ∈ adjusted.pinned
      ↔ inputs.pinsDynamic coordinate = true := by
    intro coordinate
    rw [hadjusted.pinned, hpinned, mem_dynamicCoordinates, modules_without known success.request,
      pinsDynamic]
    simp [request]
  refine alignedVersion?_eq ?_ ?_ ?_ coordinate owner
  · show adjusted.layers = _
    rw [hadjusted.layers, hlayers, List.nil_append]
  · exact hadjusted.versions.trans hversions
  · intro coordinate
    show coordinate ∈ adjusted.pinned ++ _ ↔ _
    rw [List.mem_append, hdynamic, known.mem_seeds hsource]

/-- The tree and what is told come from one staging. It fills in the kept dependencies and gives each
of them its version. -/
theorem Known.staging_of_success (known : inputs.Known barrier.recorded)
    (haligner : barrier.aligner
      = .assembled authority inputs.source inputs.exclusions inputs.adjustments)
    (success : barrier.Success (inputs.modules.map barrier.sift) combined answer adjusted result
      handle) (hversions : answer.versions = inputs.versions) :
    (barrier.aligner.restricted combined).modules = inputs.modules.map inputs.request ∧
      ∃ staging, stage staging (barrier.aligner.restricted combined) barrier.tree = .ok result ∧
        handle.nonAligned = staging.nonAligned (inputs.modules.map inputs.request) ∧
        ∀ coordinate owner, staging.response.alignedVersion? coordinate owner
          = inputs.version? coordinate owner := by
  obtain ⟨skipped, hstaged⟩ := success.staged
  obtain ⟨hstage, hmissing⟩ := Barrier.of_stageResponse_eq_ok hstaged
  have hmodules : (barrier.aligner.restricted combined).modules
      = inputs.modules.map inputs.request := by
    rw [haligner, Aligner.restricted_assembled]
    exact modules_without known success.request
  rw [hmodules] at hmissing
  exact ⟨hmodules, _, hstage, hmissing, known.alignedVersion?_of_success haligner success hversions⟩

theorem missing_request {staging : Staging} (hversion : ∀ coordinate owner,
    staging.response.alignedVersion? coordinate owner = inputs.version? coordinate owner)
    (entry : Registered) : staging.missing (inputs.request entry) = inputs.missing entry := by
  simp only [Staging.missing, missing, request, ModuleRequest.resolved, hversion]

/-- A tree that was written and its handle are what the inputs give. -/
theorem Known.gives_of_success (known : inputs.Known barrier.recorded)
    (haligner : barrier.aligner
      = .assembled authority inputs.source inputs.exclusions inputs.adjustments)
    (built : barrier.tree.Built)
    (hself : ∀ path ∈ barrier.tree.paths, barrier.tree.resolve path = .ok path)
    (hpaths : inputs.modules.map Prod.fst = barrier.tree.paths)
    (success : barrier.Success (inputs.modules.map barrier.sift) combined answer adjusted result
      handle) (hversions : answer.versions = inputs.versions) : inputs.Gives result handle := by
  obtain ⟨hmodules, staging, hstage, hmissing, hversion⟩ :=
    known.staging_of_success haligner success hversions
  have hlisted : (inputs.modules.map inputs.request).map ModuleRequest.path
      = barrier.tree.paths := by
    rw [List.map_map, ← hpaths]
    rfl
  intro entry hentry
  have hrequest : inputs.request entry ∈ inputs.modules.map inputs.request :=
    List.mem_map_of_mem hentry
  obtain ⟨found, hfound, haligned⟩ :=
    Staging.of_stage_eq_ok built hself (hmodules ▸ hlisted) hstage (hmodules ▸ hrequest)
  refine ⟨found, hfound, ?_, ?_⟩
  · rw [haligned, replacements]
    refine congrArg Keyed.ofEntries (List.filterMap_congr ?_)
    intro dependency _
    simp only [Staging.written?, request, hversion]
  · have hdistinct : ((inputs.modules.map inputs.request).map ModuleRequest.path).Nodup := by
      rw [hlisted]
      exact ModuleTree.nodup_paths built.wellKeyed
    have htold := staging.nonAligned_find? hdistinct hrequest
    rw [missing_request hversion, ← hmissing] at htold
    exact htold

end BuildInputs

/-! ### Completed builds -/

/-- Every module of a completed build has its replacements and no others, and the handle tells what
the module misses. -/
theorem Session.replacements_of_completed {tree : ModuleTree} {authority : Option Authority}
    {source : DependencySource} {exclusions : List Exclusion} {adjustments : List Adjustment}
    {policy : BarrierPolicy} {previous : Option ModuleTree} {fresh : Barrier}
    (built : tree.Built) (hself : ∀ path ∈ tree.paths, tree.resolve path = .ok path)
    (hprevious : ∀ earlier ∈ previous, ∀ path ∈ earlier.paths, earlier.resolve path = .ok path)
    (made : Barrier.new tree (.assembled authority source exclusions adjustments) policy
      = .ok fresh)
    (registrations : List Registration) (schedule : List Nat) {session : Session}
    (hsession : session
      = (Session.start (fresh.seededWith previous) registrations).run schedule)
    {handle : AlignmentHandle} (hhandle : session.barrier.finishedHandle = .ok handle)
    {result : ModuleTree} (hmodel : session.barrier.finishedModel = .ok result) :
    session.Registers tree (session.registered tree.paths) ∧
    ∃ versions, Answered authority source session.barrier.asked versions ∧
      BuildInputs.Gives ⟨session.registered tree.paths, previous, source, exclusions, adjustments,
        versions⟩ result handle := by
  have opened := Barrier.opened_seededWith made previous
  have hphase : session.barrier.phase = .completed handle := Barrier.of_finishedHandle_eq_ok hhandle
  have hresult : session.barrier.tree = result := by
    rw [Barrier.finishedModel, hhandle] at hmodel
    exact Except.ok.inj hmodel
  obtain ⟨houtcome, hasked, registers⟩ :=
    outcome_of_completed built opened registrations schedule hsession hphase
  rw [hresult] at houtcome
  obtain ⟨combined, answer, adjusted, success⟩ := Barrier.of_outcome_eq_ok houtcome
  have haligner : (fresh.seededWith previous).aligner
      = .assembled authority source exclusions adjustments := by
    rw [opened.eq]
  have htree : (fresh.seededWith previous).tree = tree := opened.tree_eq
  refine ⟨registers, answer.versions, ?_, ?_⟩
  · have hanswered := success.answered
    rw [haligner, Aligner.assembled_eq] at hanswered
    rw [hasked]
    exact hanswered
  · have known : BuildInputs.Known ⟨session.registered tree.paths, previous, source, exclusions,
        adjustments, answer.versions⟩ (fresh.seededWith previous).recorded :=
      BuildInputs.known_seededWith built hprevious made registers.paths
    refine known.gives_of_success haligner ?_ ?_ ?_ success rfl
    · rw [htree]
      exact built
    · rw [htree]
      exact hself
    · rw [htree]
      exact registers.paths

namespace SmallBuild

def earlier : ModuleTree :=
  .node (.new "app" "org.example") [("core", .single
    { ModuleInfo.new "core" "org.example" with
      aligned := [("org.lib:base:1.0", ⟨"org.lib", "base", "1.5"⟩)] })]

def answers : Authority := fun _ => .ok [(⟨"org.lib", "http", "1.0"⟩, "2.0")]

def changes : List Adjustment :=
  [.pinDynamic, .override
    [(⟨"org.log:*@*", ⟨.literal "org.log", .wildcard, .wildcard⟩, .any⟩, "3.0")]]

def adjustedBarrier : Barrier :=
  { aligner := .assembled (some answers) .rest [] changes
    policy := {}, order := [":", ":core"], remaining := [":", ":core"], tree }

def bothModules : List Registration :=
  [registrationOf ":" "app"
    [.exact ⟨"org.lib", "http", "1.0"⟩,
      ⟨⟨"org.lib", "rpc", "1.+"⟩, some ⟨"org.lib", "rpc", "1.3"⟩⟩,
      .exact ⟨"org.log", "api", "1.0"⟩, .exact ⟨"org.example", "core", "1.0"⟩,
      .exact ⟨"org.lib", "text", "1.0"⟩],
    registrationOf "core" "core" [.exact ⟨"org.lib", "base", "1.0"⟩]]

def noPlainLogging : Exclusion :=
  ⟨[⟨"org.log:plain@org.example:app", ⟨.literal "org.log", .literal "plain", .wildcard⟩,
    .owner (.literal "org.example") (.literal "app")⟩]⟩

def sparingBarrier : Barrier :=
  { adjustedBarrier with aligner := .assembled (some answers) .rest [noPlainLogging] changes }

def loggingModules : List Registration :=
  bothModules.map fun registration =>
    { registration with
      dependencies := registration.dependencies ++ [.exact ⟨"org.log", "plain", "1.0"⟩] }

theorem paths_self : ∀ path ∈ tree.paths, tree.resolve path = .ok path :=
  ModuleTree.paths_self_of_locatePath? (by decide)

theorem earlier_paths_self : ∀ path ∈ earlier.paths, earlier.resolve path = .ok path :=
  ModuleTree.paths_self_of_locatePath? (by decide)

end SmallBuild

open SmallBuild in
/-- A build in which one dependency is answered, one pinned, one overridden, one made by the build
itself, one taken over from an earlier alignment, and one missed. One that both modules have is
excluded for the first of them. -/
theorem Session.replacements_of_small_build :
    let session := (Session.start (sparingBarrier.seededWith (some earlier)) loggingModules).run
      [0, 1, 0, 1, 1, 1]
    let handle : AlignmentHandle := ⟨"1.0", false, [(":", [⟨"org.lib", "text", "1.0"⟩])]⟩
    session.barrier.phase = .completed handle ∧
      (session.barrier.tree.find ":").toOption.map (fun found => found.info.aligned)
        = some [("org.lib:http:1.0", ⟨"org.lib", "http", "2.0"⟩),
          ("org.lib:rpc:1.+", ⟨"org.lib", "rpc", "1.3"⟩),
          ("org.log:api:1.0", ⟨"org.log", "api", "3.0"⟩)] ∧
      (session.barrier.tree.find ":core").toOption.map (fun found => found.info.aligned)
        = some [("org.lib:base:1.0", ⟨"org.lib", "base", "1.5"⟩),
          ("org.log:plain:1.0", ⟨"org.log", "plain", "3.0"⟩)] ∧
      ∃ versions, Answered (some answers) .rest session.barrier.asked versions ∧
        BuildInputs.Gives ⟨session.registered tree.paths, some earlier, .rest, [noPlainLogging],
          changes, versions⟩ session.barrier.tree handle := by
  intro session handle
  have hphase : session.barrier.phase = .completed handle := by decide +kernel
  have hhandle : session.barrier.finishedHandle = .ok handle := by
    rw [Barrier.finishedHandle, hphase]
  have hmodel : session.barrier.finishedModel = .ok session.barrier.tree := by
    rw [Barrier.finishedModel, hhandle]
    rfl
  have hprevious : ∀ known ∈ some earlier, ∀ path ∈ known.paths, known.resolve path = .ok path := by
    intro known hknown
    rw [← Option.mem_some.1 hknown]
    exact earlier_paths_self
  have made : Barrier.new tree (.assembled (some answers) .rest [noPlainLogging] changes) {}
      = .ok sparingBarrier := rfl
  obtain ⟨-, hgives⟩ := replacements_of_completed built paths_self hprevious made loggingModules
    [0, 1, 0, 1, 1, 1] rfl hhandle hmodel
  exact ⟨hphase, by decide +kernel, by decide +kernel, hgives⟩

end BuildAlignment
