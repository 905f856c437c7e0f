import BuildAlignment.Proofs.Barrier.Calls
import BuildAlignment.Proofs.Barrier.Independence
import BuildAlignment.Proofs.Barrier.Published
import BuildAlignment.Proofs.Barrier.Questions

/-!
# Seeding a build with its own tree

The tree that an alignment leaves can seed the next one. An authority that knows nothing of what this
tree holds then changes nothing, if two things are settled: a declared form stands for one artifact,
and what is not aligned has nothing to do with what replaces something.

* `ModuleTree.replacementCoordinates` are all coordinates that replace something in a tree.
* `BuildInputs.Separate` says that the two things are settled, and `BuildInputs.Renewed` adds what is
  known of both runs.
* `BuildInputs.Renewed.of_version` and `BuildInputs.Renewed.of_missing` follow a dependency through
  the second run: one with a version comes to its replacement, and one without stays as it is.
* `BuildInputs.Renewed.replacements_eq` and `BuildInputs.Renewed.nonAligned_eq` put them together.
* `BuildInputs.Placed` holds of the tree of a run, and by `BuildInputs.nodes_eq_of_gives` two runs
  that give their modules the same leave the same tree.
* `Barrier.outcome_settled`: the second run comes to what the first one came to.
-/

namespace BuildAlignment

open ModuleTree (SameModules)

/-! ### Replacements in a tree -/

namespace ModuleTree

/-- What stands in for the dependencies of all modules. -/
def replacementCoordinates (tree : ModuleTree) : List Coordinate :=
  tree.nodes.flatMap fun entry => entry.2.aligned.map Prod.snd

/-- What a tree holds for a dependency is one of its replacements. -/
theorem mem_replacementCoordinates {tree : ModuleTree} {path : String} {declared found : Coordinate}
    (h : tree.recorded? path declared = some found) : found ∈ tree.replacementCoordinates := by
  rw [recorded?] at h
  obtain ⟨below, hlocated, haligned⟩ := Option.bind_eq_some_iff.1 h
  rw [locatePath?] at hlocated
  split at hlocated
  · refine List.mem_flatMap.2 ⟨_, mem_nodes_of_locate? hlocated, ?_⟩
    exact List.mem_map_of_mem (Keyed.mem_of_find? haligned)
  · cases hlocated

end ModuleTree

/-! ### Coordinates of one artifact -/

theorem Coordinate.eq_of_ref {first second : Coordinate} (href : first.ref = second.ref)
    (hversion : first.version = second.version) : first = second := by
  obtain ⟨group, artifact, version⟩ := first
  cases href
  cases hversion
  rfl

theorem Rule.covers_congr {first second : Coordinate} (h : first.ref = second.ref) (rule : Rule)
    (owner : Coordinate) : rule.covers first owner = rule.covers second owner := by
  have hgroup : first.group = second.group := congrArg ArtifactRef.group h
  have hartifact : first.artifact = second.artifact := congrArg ArtifactRef.artifact h
  rw [covers, covers, DependencyPattern.accepts, DependencyPattern.accepts, hgroup, hartifact]

namespace BuildInputs

variable {inputs : BuildInputs}

theorem overridden?_congr {first second : Coordinate} (h : first.ref = second.ref)
    (owner : Coordinate) : inputs.overridden? first owner = inputs.overridden? second owner := by
  rw [overridden?, overridden?]
  simp only [Rule.covers_congr h]

/-! ### What is known of both runs -/

/-- What the modules miss, by path. A module that misses nothing is left out. -/
def nonAligned (inputs : BuildInputs) : Keyed (List Coordinate) :=
  Keyed.ofEntries <| (inputs.modules.map fun entry => (entry.1, inputs.missing entry)).filter
    fun told => !told.2.isEmpty

/-- The authority has said the same of the dependencies that are aligned as if each of them alone had
been asked for. -/
def Answers (inputs : BuildInputs) (answer : Coordinate → Option String) : Prop :=
  ∀ entry ∈ inputs.modules, ∀ dependency ∈ inputs.kept entry, ∀ coordinate ∈ dependency.resolved,
    inputs.versions.find? coordinate = answer coordinate

section Success

variable {barrier : Barrier} {authority : Authority} {combined : Request}
  {response adjusted : Response} {result : ModuleTree} {handle : AlignmentHandle}

/-- The handle tells what the modules miss. -/
theorem Known.nonAligned_of_success (known : inputs.Known barrier.recorded)
    (haligner : barrier.aligner
      = .assembled (some authority) inputs.source inputs.exclusions inputs.adjustments)
    (success : barrier.Success (inputs.modules.map barrier.sift) combined response adjusted result
      handle) (hversions : response.versions = inputs.versions) :
    handle.nonAligned = inputs.nonAligned := by
  obtain ⟨-, staging, -, hmissing, hversion⟩ :=
    known.staging_of_success haligner success hversions
  rw [hmissing, Staging.nonAligned, nonAligned, List.map_map]
  simp only [Function.comp_def, missing_request hversion]
  rfl

/-- All that is aligned has been asked for. -/
theorem Known.answers_of_success (known : inputs.Known barrier.recorded)
    (haligner : barrier.aligner
      = .assembled (some authority) inputs.source inputs.exclusions inputs.adjustments)
    (hsource : inputs.source = .rest) {answer : Coordinate → Option String}
    (pointwise : authority.Pointwise answer)
    (success : barrier.Success (inputs.modules.map barrier.sift) combined response adjusted result
      handle) (hversions : response.versions = inputs.versions) : inputs.Answers answer := by
  obtain ⟨hmodules, -⟩ := known.staging_of_success haligner success hversions
  have hauthority : barrier.aligner.authority = some authority := by
    rw [haligner, Aligner.assembled_eq]
  have hrest : barrier.aligner.source = .rest := by
    rw [haligner, Aligner.assembled_eq, hsource]
  have hanswered := success.answered
  simp only [Barrier.questions, success.request] at hanswered
  rw [hauthority, hrest, hversions] at hanswered
  intro entry hentry dependency hdependency coordinate hcoordinate
  generalize hquestion : (barrier.aligner.align combined).asked = question at hanswered
  cases question with
  | none => cases hanswered
  | some asked =>
    cases hanswered with
    | rest there hversions =>
      cases there
      obtain ⟨versions, hsame, hfound⟩ := pointwise asked
      rw [hversions] at hsame
      cases hsame
      refine hfound coordinate ?_
      rw [Aligner.asked_eq hquestion, Request.authorityCoordinates, List.mem_eraseDups]
      refine List.mem_append_right _ ?_
      rw [Request.dependencyCoordinates, List.mem_eraseDups, hmodules]
      refine List.mem_flatMap.2 ⟨inputs.request entry, List.mem_map_of_mem hentry, ?_⟩
      exact List.mem_filterMap.2 ⟨dependency, hdependency, hcoordinate⟩

end Success

/-! ### The second run -/

/-- What a second run is to find settled. -/
structure Separate (inputs : BuildInputs) (result : ModuleTree) (handle : AlignmentHandle) :
    Prop where
  /-- The dependencies of a module that are aligned and have one declared form come to one
  artifact. -/
  artifacts : ∀ entry ∈ inputs.modules,
    ∀ first ∈ entry.2.dependencies, inputs.keeps entry.2.coordinate first = true →
    ∀ second ∈ entry.2.dependencies, inputs.keeps entry.2.coordinate second = true →
    first.declared.display = second.declared.display →
    ∀ resolved ∈ first.resolved, ∀ other ∈ second.resolved, resolved.ref = other.ref
  /-- What was told to be not aligned replaces nothing, and nothing replaces it. -/
  missed : ∀ entry ∈ inputs.modules, ∀ coordinate ∈ (handle.nonAligned.find? entry.1).getD [],
    coordinate ∉ result.replacementCoordinates ∧
      ∀ dependency ∈ entry.2.dependencies, inputs.keeps entry.2.coordinate dependency = true →
        dependency.resolved = some coordinate →
          result.recorded? entry.1 dependency.declared = none

/-- The inputs of a second run that is seeded with the tree of the first one. -/
abbrev again (inputs : BuildInputs) (result : ModuleTree) (versions : NewVersions) : BuildInputs :=
  { inputs with previous := some result, versions }

/-- A first run with all that is known of it, and the answer that the authority gave in a second run
that was seeded with its tree. -/
structure Renewed (inputs : BuildInputs) (result : ModuleTree) (handle : AlignmentHandle)
    (answer : Coordinate → Option String) (versions : NewVersions) : Prop where
  source : inputs.source = .rest
  first : inputs.previous = none
  pins : inputs.adjustments.any Adjustment.pinsDynamic = true
  recorded : ∀ entry ∈ inputs.modules, ∀ declared : Coordinate,
    result.recorded? entry.1 declared = (inputs.replacements entry).find? declared.display
  told : ∀ entry ∈ inputs.modules,
    handle.nonAligned.find? entry.1 = inputs.unaligned? entry
  separate : inputs.Separate result handle
  unknown : ∀ coordinate ∈ result.replacementCoordinates, answer coordinate = none
  answers : inputs.Answers answer
  answersAgain : (inputs.again result versions).Answers answer

namespace Renewed

variable {result : ModuleTree} {handle : AlignmentHandle} {answer : Coordinate → Option String}
  {versions : NewVersions} {entry : Registered} {dependency : Dependency} {resolved : Coordinate}

theorem kept_eq (h : inputs.Renewed result handle answer versions) (entry : Registered) :
    inputs.kept entry = entry.2.dependencies.filter (inputs.keeps entry.2.coordinate) := by
  have hself : ∀ dependency : Dependency, inputs.renewed entry.1 dependency = dependency := by
    intro dependency
    obtain ⟨declared, resolved⟩ := dependency
    rw [renewed, recorded?, h.first]
    cases resolved with
    | none => rfl
    | some resolved => rfl
  rw [kept, List.map_congr_left fun dependency _ => hself dependency, List.map_id']

theorem mem_kept_self (h : inputs.Renewed result handle answer versions)
    (hlisted : dependency ∈ entry.2.dependencies)
    (hkept : inputs.keeps entry.2.coordinate dependency = true) :
    dependency ∈ inputs.kept entry := by
  rw [h.kept_eq]
  exact List.mem_filter.2 ⟨hlisted, hkept⟩

/-- The authority has been asked in the second run for what an aligned dependency comes to there. -/
theorem answered?_again (h : inputs.Renewed result handle answer versions)
    (hentry : entry ∈ inputs.modules) (hlisted : dependency ∈ entry.2.dependencies)
    (hkept : inputs.keeps entry.2.coordinate dependency = true)
    (hrenewed : ((inputs.again result versions).renewed entry.1 dependency).resolved
      = some resolved) :
    (inputs.again result versions).answered? resolved
      = (answer resolved).filter fun version => !Text.isBlank version := by
  have hthere : (inputs.again result versions).renewed entry.1 dependency
      ∈ (inputs.again result versions).kept entry := mem_kept hlisted hkept
  rw [answered?, h.answersAgain entry hentry _ hthere resolved hrenewed]

/-- Every dynamic dependency that is aligned has a version. -/
theorem isSome_version?_of_dynamic (h : inputs.Renewed result handle answer versions)
    (hentry : entry ∈ inputs.modules) (hlisted : dependency ∈ entry.2.dependencies)
    (hkept : inputs.keeps entry.2.coordinate dependency = true)
    (hresolved : dependency.resolved = some resolved) (hdynamic : dependency.isDynamic = true) :
    (inputs.version? resolved entry.2.coordinate).isSome = true := by
  have hpinned : inputs.pinsDynamic resolved = true := by
    rw [pinsDynamic, h.pins, Bool.true_and, List.any_eq_true]
    refine ⟨entry, hentry, List.any_eq_true.2 ⟨dependency, h.mem_kept_self hlisted hkept, ?_⟩⟩
    rw [hdynamic, hresolved]
    simp
  rw [version?_of_pinned (by rw [hpinned, Bool.true_or])]
  rfl

/-- The first run has recorded the artifact of every dependency that has a version, in the version of
an override if there is one. -/
theorem exists_recorded (h : inputs.Renewed result handle answer versions)
    (hentry : entry ∈ inputs.modules) (hlisted : dependency ∈ entry.2.dependencies)
    (hkept : inputs.keeps entry.2.coordinate dependency = true)
    (hresolved : dependency.resolved = some resolved)
    (hversion : (inputs.version? resolved entry.2.coordinate).isSome = true) :
    ∃ found, result.recorded? entry.1 dependency.declared = some found ∧
      resolved.ref = found.ref ∧
      ∀ version, inputs.overridden? found entry.2.coordinate = some version →
        version = found.version := by
  obtain ⟨version, hversion⟩ := Option.isSome_iff_exists.1 hversion
  have hwritten : dependency.replacement? (fun coordinate =>
      inputs.version? coordinate entry.2.coordinate)
        = some (dependency.declared.display, resolved.withVersion version) := by
    simp only [Dependency.replacement?, hresolved, Option.bind_some, hversion]
  have hmem := List.mem_filterMap.2 ⟨dependency, h.mem_kept_self hlisted hkept, hwritten⟩
  obtain ⟨found, hfound, hlast⟩ := Keyed.exists_find?_ofEntries (List.mem_map_of_mem hmem)
  -- What was recorded was written for a dependency with the same declared form.
  obtain ⟨other, hother, hmade⟩ := List.mem_filterMap.1 hlast
  rw [h.kept_eq] at hother
  obtain ⟨hotherListed, hotherKept⟩ := List.mem_filter.1 hother
  have hdisplay : dependency.declared.display = other.declared.display :=
    Dependency.fst_of_replacement? hmade
  rw [Dependency.replacement?] at hmade
  obtain ⟨origin, horigin, hmade⟩ := Option.bind_eq_some_iff.1 hmade
  have href := h.separate.artifacts entry hentry dependency hlisted hkept other hotherListed
    hotherKept hdisplay resolved hresolved origin horigin
  refine ⟨found, (h.recorded entry hentry _).trans hfound, ?_⟩
  cases hassigned : inputs.version? origin entry.2.coordinate with
  | none =>
    simp only [hassigned] at hmade
    split at hmade
    · rename_i hdynamic
      have hsome := h.isSome_version?_of_dynamic hentry hotherListed hotherKept horigin hdynamic
      rw [hassigned] at hsome
      cases hsome
    · cases hmade
  | some assigned =>
    simp only [hassigned] at hmade
    obtain ⟨-, rfl⟩ := Prod.mk.inj (Option.some.inj hmade)
    refine ⟨href, ?_⟩
    intro overriding hoverridden
    rw [overridden?_congr (Coordinate.ref_withVersion origin assigned)] at hoverridden
    rw [version?, hoverridden] at hassigned
    exact Option.some.inj hassigned

/-- In the second run a dependency comes to what was recorded for it. -/
theorem resolved_renewed {found : Coordinate}
    (hrecorded : result.recorded? entry.1 dependency.declared = some found)
    (hresolved : dependency.resolved = some resolved) (href : resolved.ref = found.ref) :
    ((inputs.again result versions).renewed entry.1 dependency).resolved = some found := by
  have hagain : (inputs.again result versions).recorded? entry.1 dependency = some found :=
    hrecorded
  rw [renewed, hagain, hresolved, Option.map_some, Coordinate.renewed]
  split
  · rename_i hsame
    rw [Coordinate.eq_of_ref href hsame.symm]
  · rfl

/-- A dependency that has a version comes to what the first run recorded for it, and keeps that in
the second run. -/
theorem of_version (h : inputs.Renewed result handle answer versions)
    (hentry : entry ∈ inputs.modules) (hlisted : dependency ∈ entry.2.dependencies)
    (hkept : inputs.keeps entry.2.coordinate dependency = true)
    (hresolved : dependency.resolved = some resolved)
    (hversion : (inputs.version? resolved entry.2.coordinate).isSome = true) :
    ∃ found, result.recorded? entry.1 dependency.declared = some found ∧
      ((inputs.again result versions).renewed entry.1 dependency).resolved = some found ∧
      (inputs.again result versions).version? found entry.2.coordinate = some found.version := by
  obtain ⟨found, hrecorded, href, hoverridden⟩ :=
    h.exists_recorded hentry hlisted hkept hresolved hversion
  have hrenewed : ((inputs.again result versions).renewed entry.1 dependency).resolved
      = some found := resolved_renewed hrecorded hresolved href
  have hagain : (inputs.again result versions).recorded? entry.1 dependency = some found :=
    hrecorded
  refine ⟨found, hrecorded, hrenewed, ?_⟩
  have hsame : (inputs.again result versions).overridden? found entry.2.coordinate
      = inputs.overridden? found entry.2.coordinate := rfl
  have hanswered : (inputs.again result versions).answered? found = none := by
    rw [h.answered?_again hentry hlisted hkept hrenewed,
      h.unknown found (ModuleTree.mem_replacementCoordinates hrecorded)]
    rfl
  have hpinned : (inputs.again result versions).pinsRecorded found = true :=
    pinsRecorded_of_renewed h.source hentry hlisted hkept hagain hrenewed
  rw [version?_of_pinned (by rw [hpinned, Bool.or_true]), hsame, hanswered]
  cases hcase : inputs.overridden? found entry.2.coordinate with
  | some version => exact congrArg some (hoverridden version hcase)
  | none => rfl

/-- Whatever is pinned in the second run replaces something in the tree of the first one. -/
theorem mem_of_pinned (h : inputs.Renewed result handle answer versions) {coordinate : Coordinate}
    (hpinned : (inputs.again result versions).pinsDynamic coordinate = true ∨
      (inputs.again result versions).pinsRecorded coordinate = true) :
    coordinate ∈ result.replacementCoordinates := by
  rcases hpinned with hpinned | hpinned
  · rw [pinsDynamic, Bool.and_eq_true] at hpinned
    obtain ⟨entry, hentry, hsome⟩ := List.any_eq_true.1 hpinned.2
    obtain ⟨renewed, hrenewed, hdynamic⟩ := List.any_eq_true.1 hsome
    obtain ⟨dependency, hdependency, rfl⟩ := List.mem_map.1 hrenewed
    obtain ⟨hlisted, hkept⟩ := List.mem_filter.1 hdependency
    rw [Bool.and_eq_true, beq_iff_eq] at hdynamic
    obtain ⟨hdynamic, hcomes⟩ := hdynamic
    -- A dynamic dependency had a version in the first run.
    obtain ⟨resolved, hresolved⟩ := exists_resolved_of_keeps hkept
    obtain ⟨found, hrecorded, hfound, -⟩ := h.of_version hentry hlisted hkept hresolved
      (h.isSome_version?_of_dynamic hentry hlisted hkept hresolved hdynamic)
    rw [hfound] at hcomes
    cases hcomes
    exact ModuleTree.mem_replacementCoordinates hrecorded
  · rw [pinsRecorded, Bool.and_eq_true] at hpinned
    obtain ⟨entry, -, hsome⟩ := List.any_eq_true.1 hpinned.2
    obtain ⟨dependency, -, hrecorded⟩ := List.any_eq_true.1 hsome
    rw [Bool.and_eq_true, beq_iff_eq] at hrecorded
    exact ModuleTree.mem_replacementCoordinates hrecorded.2

/-- A dependency without a version comes to the same in the second run, and has no version there
either. -/
theorem of_missing (h : inputs.Renewed result handle answer versions)
    (hentry : entry ∈ inputs.modules) (hlisted : dependency ∈ entry.2.dependencies)
    (hkept : inputs.keeps entry.2.coordinate dependency = true)
    (hresolved : dependency.resolved = some resolved)
    (hversion : inputs.version? resolved entry.2.coordinate = none) :
    ((inputs.again result versions).renewed entry.1 dependency).resolved = some resolved ∧
      (inputs.again result versions).version? resolved entry.2.coordinate = none := by
  have hmissed : resolved ∈ inputs.missing entry := by
    refine List.mem_filter.2 ⟨List.mem_filterMap.2 ⟨dependency, ?_, hresolved⟩, ?_⟩
    · exact h.mem_kept_self hlisted hkept
    · rw [hversion]
      rfl
  have htold : resolved ∈ (handle.nonAligned.find? entry.1).getD [] := by
    rw [h.told entry hentry, unaligned?, if_neg (List.ne_nil_of_mem hmissed)]
    exact hmissed
  obtain ⟨hnot, hnone⟩ := h.separate.missed entry hentry resolved htold
  have hrenewed : ((inputs.again result versions).renewed entry.1 dependency).resolved
      = some resolved := by
    have hagain : (inputs.again result versions).recorded? entry.1 dependency = none :=
      hnone dependency hlisted hkept hresolved
    rw [renewed, hagain, hresolved]
    rfl
  refine ⟨hrenewed, ?_⟩
  obtain ⟨hoverridden, hanswered, -⟩ := version?_eq_none_iff.1 hversion
  refine version?_eq_none_iff.2 ⟨hoverridden, ?_, ?_⟩
  · rw [h.answered?_again hentry hlisted hkept hrenewed,
      ← h.answers entry hentry dependency (h.mem_kept_self hlisted hkept) resolved hresolved]
    exact hanswered
  · rw [Bool.or_eq_true]
    exact fun hpinned => hnot (h.mem_of_pinned hpinned)

theorem kept_again (entry : Registered) : (inputs.again result versions).kept entry
    = (entry.2.dependencies.filter (inputs.keeps entry.2.coordinate)).map
        ((inputs.again result versions).renewed entry.1) := rfl

theorem replacements_eq (h : inputs.Renewed result handle answer versions)
    (hentry : entry ∈ inputs.modules) :
    (inputs.again result versions).replacements entry = inputs.replacements entry := by
  -- What is written for a dependency is what all writes of the first run came to.
  have hwritten : ((inputs.again result versions).kept entry).filterMap
        (Dependency.replacement? fun coordinate =>
          (inputs.again result versions).version? coordinate entry.2.coordinate)
      = ((inputs.kept entry).filterMap (Dependency.replacement? fun coordinate =>
          inputs.version? coordinate entry.2.coordinate)).map fun written =>
            (written.1, ((inputs.replacements entry).find? written.1).getD written.2) := by
    rw [kept_again, h.kept_eq, List.filterMap_map, List.map_filterMap]
    refine List.filterMap_congr ?_
    intro dependency hdependency
    obtain ⟨hlisted, hkept⟩ := List.mem_filter.1 hdependency
    obtain ⟨resolved, hresolved⟩ := exists_resolved_of_keeps hkept
    rw [Function.comp_apply]
    cases hversion : inputs.version? resolved entry.2.coordinate with
    | some version =>
      obtain ⟨found, hrecorded, hrenewed, hagain⟩ := h.of_version hentry hlisted hkept hresolved
        (Option.isSome_of_eq_some hversion)
      rw [h.recorded entry hentry] at hrecorded
      simp only [Dependency.replacement?, hrenewed, hresolved, Option.bind_some, hagain, hversion,
        Option.map_some, hrecorded, Option.getD_some]
      rfl
    | none =>
      obtain ⟨hrenewed, hagain⟩ := h.of_missing hentry hlisted hkept hresolved hversion
      have hstatic : dependency.isDynamic = false := by
        by_contra hdynamic
        have hsome := h.isSome_version?_of_dynamic hentry hlisted hkept hresolved
          (Bool.eq_true_of_not_eq_false hdynamic)
        rw [hversion] at hsome
        cases hsome
      have hstays : ((inputs.again result versions).renewed entry.1 dependency).isDynamic = false :=
        hstatic
      simp only [Dependency.replacement?, hrenewed, hresolved, Option.bind_some, hagain, hversion,
        hstatic, hstays, Bool.false_eq_true, if_false, Option.map_none]
  rw [replacements, hwritten]
  exact Keyed.ofEntries_settled _

theorem missing_eq (h : inputs.Renewed result handle answer versions)
    (hentry : entry ∈ inputs.modules) :
    (inputs.again result versions).missing entry = inputs.missing entry := by
  rw [missing, missing, kept_again, h.kept_eq, List.filterMap_map, List.filter_filterMap,
    List.filter_filterMap]
  refine List.filterMap_congr ?_
  intro dependency hdependency
  obtain ⟨hlisted, hkept⟩ := List.mem_filter.1 hdependency
  obtain ⟨resolved, hresolved⟩ := exists_resolved_of_keeps hkept
  rw [Function.comp_apply]
  cases hversion : inputs.version? resolved entry.2.coordinate with
  | some version =>
    obtain ⟨found, -, hrenewed, hagain⟩ := h.of_version hentry hlisted hkept hresolved
      (Option.isSome_of_eq_some hversion)
    rw [hrenewed, hresolved, Option.filter_some, Option.filter_some, hagain, hversion]
    rfl
  | none =>
    obtain ⟨hrenewed, hagain⟩ := h.of_missing hentry hlisted hkept hresolved hversion
    rw [hrenewed, hresolved, Option.filter_some, Option.filter_some, hagain, hversion]

theorem nonAligned_eq (h : inputs.Renewed result handle answer versions) :
    (inputs.again result versions).nonAligned = inputs.nonAligned := by
  rw [nonAligned, nonAligned]
  refine congrArg (fun told => Keyed.ofEntries (List.filter _ told)) (List.map_congr_left ?_)
  intro entry hentry
  rw [h.missing_eq hentry]

end Renewed

/-! ### The tree of a run -/

/-- The tree of a run has the modules of the tree that it was made for, each at its place. -/
structure Placed (tree result : ModuleTree) : Prop where
  built : tree.Built
  self : ∀ path ∈ tree.paths, tree.resolve path = .ok path
  outline : ModuleTree.SameOutline result tree
  addressed : ModuleTree.Addressed result

theorem placed_of_success {barrier : Barrier} {modules : List Registered} {combined : Request}
    {answer adjusted : Response} {result : ModuleTree} {handle : AlignmentHandle}
    (built : barrier.tree.Built)
    (hself : ∀ path ∈ barrier.tree.paths, barrier.tree.resolve path = .ok path)
    (hpaths : modules.map Prod.fst = barrier.tree.paths)
    (success : barrier.Success modules combined answer adjusted result handle) :
    Placed barrier.tree result := by
  obtain ⟨skipped, hstaged⟩ := success.staged
  obtain ⟨hstage, -⟩ := Barrier.of_stageResponse_eq_ok hstaged
  have hlisted : (barrier.aligner.restricted combined).modules.map ModuleRequest.path
      = barrier.tree.paths := by
    rw [Aligner.paths_restricted, modules_of_combinedRequest success.request, List.map_map,
      ← hpaths]
    rfl
  obtain ⟨group, -, hfilled⟩ := Staging.filled_of_stage_eq_ok built hself hlisted hstage
  exact ⟨built, hself, hfilled.outline, hfilled.addressed⟩

namespace Placed

variable {tree result : ModuleTree} {handle : AlignmentHandle} {entry : Registered}

theorem paths_self (h : Placed tree result) : ∀ path ∈ result.paths,
    result.resolve path = .ok path := by
  intro path hpath
  rw [ModuleTree.resolve_congr h.outline]
  exact h.self path (h.outline.paths_eq ▸ hpath)

theorem segments?_ofKeys (h : Placed tree result) {keys : List String} {info : ModuleInfo}
    (hmem : (keys, info) ∈ result.nodes) :
    ModulePath.segments? (ModulePath.ofKeys keys) = some keys := by
  have hkeys := congrArg (List.map Prod.fst) h.outline.names
  simp only [List.map_map, Function.comp_def] at hkeys
  have hthere : keys ∈ tree.nodes.map Prod.fst := by
    rw [← hkeys]
    exact List.mem_map_of_mem hmem
  obtain ⟨⟨known, old⟩, hold, rfl⟩ := List.mem_map.1 hthere
  exact ModulePath.segments?_ofKeys (h.built.wellKeyed.fit_nodes _ hold)

/-- What a run gives to a module stands at its place in the tree. -/
theorem aligned_of_mem_nodes (h : Placed tree result) (gives : inputs.Gives result handle)
    (hentry : entry ∈ inputs.modules) {keys : List String} {info : ModuleInfo}
    (hmem : (keys, info) ∈ result.nodes) (hpath : entry.1 = ModulePath.ofKeys keys) :
    info.aligned = inputs.replacements entry := by
  have hlisted : ModulePath.ofKeys keys ∈ result.paths := List.mem_map_of_mem hmem
  obtain ⟨found, hfound, hinfo⟩ := ModuleTree.find_eq (h.paths_self _ hlisted)
    (h.segments?_ofKeys hmem) (h.addressed _ hmem)
  obtain ⟨same, hsame, haligned, -⟩ := gives entry hentry
  rw [hpath, hfound] at hsame
  cases hsame
  rw [← haligned, hinfo]

/-- The tree of a run holds what the run gave to its modules. -/
theorem recorded?_eq (h : Placed tree result) (gives : inputs.Gives result handle)
    (hpaths : inputs.modules.map Prod.fst = tree.paths) (hentry : entry ∈ inputs.modules)
    (declared : Coordinate) :
    result.recorded? entry.1 declared = (inputs.replacements entry).find? declared.display := by
  have hlisted : entry.1 ∈ result.paths := by
    rw [h.outline.paths_eq, ← hpaths]
    exact List.mem_map_of_mem hentry
  obtain ⟨⟨keys, info⟩, hmem, hpath⟩ := List.mem_map.1 hlisted
  have hread : ModulePath.segments? entry.1 = some keys := hpath ▸ h.segments?_ofKeys hmem
  obtain ⟨found, hfound, haligned, -⟩ := gives entry hentry
  rw [← ModuleTree.told?_eq_recorded? h.paths_self hread hpath, ModuleTree.told?, if_pos hlisted,
    hfound]
  show found.info.aligned? declared.display = _
  rw [ModuleInfo.aligned?, haligned]

end Placed

/-- Two runs that gave the same to the same modules have left the same tree. -/
theorem nodes_eq_of_gives {again : BuildInputs} {tree result renewed : ModuleTree}
    {handle other : AlignmentHandle} (first : Placed tree result) (second : Placed tree renewed)
    (hsame : SameModules renewed result) (gives : inputs.Gives result handle)
    (givesAgain : again.Gives renewed other) (hmodules : again.modules = inputs.modules)
    (hpaths : inputs.modules.map Prod.fst = tree.paths)
    (hreplacements : ∀ entry ∈ inputs.modules,
      again.replacements entry = inputs.replacements entry) : renewed.nodes = result.nodes := by
  rw [← List.forall₂_eq_eq_eq]
  refine forall₂_of_map_eq hsame.listed ?_
  rintro ⟨keys, info⟩ hinfo ⟨others, kept⟩ hkept heq
  obtain ⟨rfl, hunaligned⟩ := Prod.mk.inj heq
  have hlisted : ModulePath.ofKeys keys ∈ inputs.modules.map Prod.fst := by
    rw [hpaths, ← first.outline.paths_eq]
    exact List.mem_map_of_mem hkept
  obtain ⟨entry, hentry, hpath⟩ := List.mem_map.1 hlisted
  have haligned : info.aligned = kept.aligned := by
    rw [second.aligned_of_mem_nodes givesAgain (hmodules ▸ hentry) hinfo hpath,
      first.aligned_of_mem_nodes gives hentry hkept hpath, hreplacements entry hentry]
  exact congrArg (Prod.mk keys) (ModuleInfo.eq_of_unaligned hunaligned haligned)

end BuildInputs

/-! ### The outcome of a second run -/

namespace Barrier

section Again

variable {tree : ModuleTree} {authority : Authority} {answer : Coordinate → Option String}
  {exclusions : List Exclusion} {adjustments : List Adjustment} {policy : BarrierPolicy}
  {fresh : Barrier} {modules : List Registered} {result : ModuleTree} {handle : AlignmentHandle}

/-- What a barrier is seeded with has no say in whether it comes to an outcome. -/
theorem outcome_withPrevious
    (made : Barrier.new tree (.assembled (some authority) .rest exclusions adjustments) policy
      = .ok fresh) (pointwise : authority.Pointwise answer)
    (houtcome : fresh.outcome (modules.map fresh.sift) = .ok (result, handle))
    (previous : ModuleTree) :
    ∃ renewed other, (fresh.withPrevious previous).outcome
        (modules.map (fresh.withPrevious previous).sift) = .ok (renewed, other) ∧
      SameModules renewed result ∧ other.Same handle := by
  have opened : Opened tree _ policy fresh := .new made
  have huniform : fresh.aligner.Uniform := by
    rw [opened.eq, Aligner.assembled_eq]
    exact .pointwise rfl rfl pointwise
  have houtline : (modules.map (fresh.withPrevious previous).sift).map Registered.outline
      = (modules.map fresh.sift).map Registered.outline := by
    rw [List.map_map, List.map_map]
    rfl
  have haligner : (fresh.withPrevious previous).aligner = fresh.aligner := rfl
  have hagree := agree_outcome haligner huniform rfl rfl houtline
  rw [houtcome] at hagree
  obtain ⟨⟨renewed, other⟩, hagain, hsame⟩ := hagree.exists_of_ok
  exact ⟨renewed, other, hagain, hsame⟩

/-- A build that is seeded with its own tree comes to the same. -/
theorem outcome_settled (built : tree.Built)
    (hself : ∀ path ∈ tree.paths, tree.resolve path = .ok path)
    (made : Barrier.new tree (.assembled (some authority) .rest exclusions adjustments) policy
      = .ok fresh) (pointwise : authority.Pointwise answer)
    (hpins : adjustments.any Adjustment.pinsDynamic = true)
    (hpaths : modules.map Prod.fst = tree.paths)
    (houtcome : fresh.outcome (modules.map fresh.sift) = .ok (result, handle))
    (hunknown : ∀ coordinate ∈ result.replacementCoordinates, answer coordinate = none)
    (separate : BuildInputs.Separate ⟨modules, none, .rest, exclusions, adjustments, []⟩ result
      handle) :
    ∃ renewed, (fresh.withPrevious result).outcome
        (modules.map (fresh.withPrevious result).sift) = .ok (renewed, handle) ∧
      renewed.nodes = result.nodes := by
  have opened : Opened tree (.assembled (some authority) .rest exclusions adjustments) policy
    fresh := .new made
  have htree : fresh.tree = tree := opened.tree_eq
  have haligner : fresh.aligner = .assembled (some authority) .rest exclusions adjustments := by
    rw [opened.eq]
  subst htree
  obtain ⟨renewed, other, hagain, hsame, hhandle⟩ :=
    outcome_withPrevious made pointwise houtcome result
  obtain ⟨combined, response, adjusted, success⟩ := of_outcome_eq_ok houtcome
  obtain ⟨combined', response', adjusted', success'⟩ := of_outcome_eq_ok hagain
  let inputs : BuildInputs := ⟨modules, none, .rest, exclusions, adjustments, response.versions⟩
  have hsifted : ∀ barrier : Barrier, (modules.map barrier.sift).map Prod.fst = fresh.tree.paths := by
    intro barrier
    rw [List.map_map, ← hpaths]
    rfl
  have placed := BuildInputs.placed_of_success built hself (hsifted _) success
  have built' : (fresh.withPrevious result).tree.Built := built
  have placed' := BuildInputs.placed_of_success built' hself (hsifted _) success'
  have hprevious : ∀ earlier ∈ some result, ∀ path ∈ earlier.paths,
      earlier.resolve path = .ok path := by
    intro earlier hearlier
    rw [← Option.mem_some.1 hearlier]
    exact placed.paths_self
  have known : inputs.Known fresh.recorded :=
    BuildInputs.known_seededWith built (by simp [inputs]) made hpaths
  have known' : (inputs.again result response'.versions).Known
      (fresh.withPrevious result).recorded :=
    BuildInputs.known_seededWith built hprevious made hpaths
  have gives := known.gives_of_success haligner built hself hpaths success rfl
  have gives' := known'.gives_of_success haligner built' hself hpaths success' rfl
  have hrenewed : inputs.Renewed result handle answer response'.versions :=
    { source := rfl
      first := rfl
      pins := hpins
      recorded := fun entry hentry => placed.recorded?_eq gives hpaths hentry
      told := fun entry hentry => by
        obtain ⟨found, -, -, htold⟩ := gives entry hentry
        exact htold
      separate := ⟨separate.artifacts, separate.missed⟩
      unknown := hunknown
      answers := known.answers_of_success haligner rfl pointwise success rfl
      answersAgain := known'.answers_of_success haligner rfl pointwise success' rfl }
  have htold : other.nonAligned = handle.nonAligned := by
    rw [known'.nonAligned_of_success haligner success' rfl,
      known.nonAligned_of_success haligner success rfl]
    exact hrenewed.nonAligned_eq
  obtain rfl := hhandle.eq htold
  exact ⟨renewed, hagain, BuildInputs.nodes_eq_of_gives placed placed' hsame gives gives' rfl hpaths
    fun entry hentry => hrenewed.replacements_eq hentry⟩

end Again

end Barrier

end BuildAlignment
