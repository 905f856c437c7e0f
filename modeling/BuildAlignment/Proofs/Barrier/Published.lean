import BuildAlignment.Proofs.Alignment.Assembly
import BuildAlignment.Proofs.Barrier.Completion
import BuildAlignment.Proofs.Barrier.Recorded
import BuildAlignment.Proofs.Barrier.Staged

/-!
# The tree of a completed build

A completed build has the modules it had before, each with the versions it is meant to have. Only a
root without a group gets another one.

* `ModuleTree.lastMeaning?` is the last of some values whose key means a path. By
  `Barrier.find?_resolveVersions` a barrier keeps these as its module versions.
* `Registration.declaredVersion?` is the version that a registration declares.
* `ModuleTree.Keeps` and `ModuleTree.Gets` say what a module keeps and which versions it gets,
  `ModuleTree.Published` says so of all modules of a tree.
* `Session.published_of_completed`: the tree of a completed build is published this way.
-/

namespace BuildAlignment

/-! ### Lists -/

section Lists

variable {α β γ : Type}

/-- Two lists with the same keys are related item by item, if items with one key are. -/
theorem forall₂_of_map_eq {first : List α} {second : List β} {key : α → γ} {other : β → γ}
    {related : α → β → Prop} (hkeys : first.map key = second.map other)
    (h : ∀ a ∈ first, ∀ b ∈ second, key a = other b → related a b) :
    List.Forall₂ related first second := by
  induction first generalizing second with
  | nil =>
    rw [List.map_nil] at hkeys
    rw [List.map_eq_nil_iff.1 hkeys.symm]
    exact .nil
  | cons a rest ih =>
    cases second with
    | nil => cases hkeys
    | cons b others =>
      obtain ⟨hhead, htail⟩ := List.cons.inj hkeys
      refine .cons (h a List.mem_cons_self b List.mem_cons_self hhead) (ih htail ?_)
      intro a' ha b' hb
      exact h a' (List.mem_cons_of_mem _ ha) b' (List.mem_cons_of_mem _ hb)

end Lists

/-! ### Module versions -/

/-- The last of some values whose key means a path. -/
def ModuleTree.lastMeaning? (tree : ModuleTree) (values : Keyed String) (path : String) :
    Option String :=
  (values.reverse.find? fun entry => (tree.resolve entry.1).toOption == some path).map Prod.snd

namespace Barrier

theorem find?_foldlM_insert {tree : ModuleTree} {values start resolved : Keyed String}
    (h : values.foldlM (fun known entry =>
      (tree.resolve entry.1).map fun path => known.insert path entry.2) start = .ok resolved)
    (path : String) :
    resolved.find? path = (tree.lastMeaning? values path).or (start.find? path) := by
  induction values generalizing start with
  | nil =>
    cases h
    rfl
  | cons entry rest ih =>
    rw [List.foldlM_cons] at h
    cases hmeant : tree.resolve entry.1 with
    | error error =>
      rw [hmeant] at h
      cases h
    | ok meant =>
      rw [hmeant] at h
      rw [ih h, Keyed.find?_insert, ModuleTree.lastMeaning?, ModuleTree.lastMeaning?,
        List.reverse_cons, List.find?_append, List.find?_singleton, hmeant]
      by_cases hpath : meant = path
      · cases hfound : rest.reverse.find? fun entry =>
          (tree.resolve entry.1).toOption == some path <;> simp [hpath, Except.toOption]
      · simp [hpath, Except.toOption]

/-- The module version of a path is the last one whose key means the path. -/
theorem find?_resolveVersions {tree : ModuleTree} {versions resolved : Keyed String}
    (h : resolveVersions tree versions = .ok resolved) (path : String) :
    resolved.find? path = tree.lastMeaning? versions path := by
  rw [find?_foldlM_insert h path]
  exact Option.or_none

theorem policy_of_new {tree : ModuleTree} {aligner : Aligner} {policy : BarrierPolicy}
    {fresh : Barrier} (made : Barrier.new tree aligner policy = .ok fresh) :
    ∃ versions, resolveVersions tree policy.moduleVersions = .ok versions ∧
      fresh.policy = { policy with moduleVersions := versions } := by
  obtain ⟨versions, hversions, rfl⟩ := of_map_eq_ok made
  exact ⟨versions, hversions, rfl⟩

theorem policy_seededWith (barrier : Barrier) (previous : Option ModuleTree) :
    (barrier.seededWith previous).policy = barrier.policy := by
  cases previous with
  | none => rfl
  | some earlier => rfl

end Barrier

/-! ### Declared versions -/

/-- The version that a registration declares, if it says something. -/
def Registration.declaredVersion? (registration : Registration) : Option String :=
  Version.specified? registration.coordinate.version

/-- The version of a build is the first one that a registration declares. -/
theorem projectVersion?_eq (modules : List Registered) :
    projectVersion? modules = modules.findSome? fun entry => entry.2.declaredVersion? := by
  induction modules with
  | nil => rfl
  | cons entry rest ih =>
    rw [projectVersion?] at ih ⊢
    rw [List.map_cons, List.find?_cons, List.findSome?_cons, ih, Registration.declaredVersion?,
      Version.specified?]
    cases Version.isUnspecified entry.2.coordinate.version with
    | true => rfl
    | false => rfl

theorem Staging.assignedVersion?_eq (staging : Staging) (path : String) :
    staging.assignedVersion? path =
      if staging.policy.versionModification then
        some ((staging.policy.moduleVersions.find? path).getD staging.newVersion)
      else staging.specified? path := rfl

/-- A module is staged with the version that its registration declares. -/
theorem Barrier.specified?_staging {barrier : Barrier} {modules : List Registered}
    {response : Response} {newVersion : String} (hdistinct : (modules.map Prod.fst).Nodup)
    {entry : Registered} (hentry : entry ∈ modules) :
    (barrier.staging modules response newVersion).specified? entry.1
      = entry.2.declaredVersion? := by
  have hdeclared : (barrier.staging modules response newVersion).declaredVersion entry.1
      = entry.2.coordinate.version := by
    have hkeys : ((modules.map fun other => (other.1, other.2.coordinate.version)).map
        Prod.fst).Nodup := by
      rw [List.map_map]
      exact hdistinct
    have hmem : (entry.1, entry.2.coordinate.version)
        ∈ modules.map fun other => (other.1, other.2.coordinate.version) :=
      List.mem_map_of_mem hentry
    rw [Staging.declaredVersion, staging, Keyed.findEntry_of_mem hkeys hmem]
    rfl
  rw [Staging.specified?, hdeclared, Registration.declaredVersion?]

/-! ### Filled trees -/

namespace Staging.Filled

variable {staging : Staging} {request : Request} {group : String} {tree after : ModuleTree}

/-- The modules of a filled tree stand where they stood. -/
theorem keys_eq (h : staging.Filled request group tree after) :
    tree.nodes.map Prod.fst = after.nodes.map Prod.fst := by
  have hkeys := congrArg (List.map Prod.fst) h.outline.names
  simpa only [List.map_map, Function.comp_def] using hkeys.symm

/-- Every module of a filled tree is the old one, filled in by the request for its path. -/
theorem of_mem_nodes (h : staging.Filled request group tree after) (built : tree.Built)
    (hpaths : request.modules.map ModuleRequest.path = tree.paths)
    {keys : List String} {old info : ModuleInfo} (hold : (keys, old) ∈ tree.nodes)
    (hinfo : (keys, info) ∈ after.nodes) :
    ∃ entry ∈ request.modules, entry.path = ModulePath.ofKeys keys ∧
      info = staging.filled entry
        (if keys = [] then old.asRoot request.projectVersion group else old) := by
  have hlisted : ModulePath.ofKeys keys ∈ request.modules.map ModuleRequest.path := by
    rw [hpaths]
    exact List.mem_map.2 ⟨(keys, old), hold, rfl⟩
  obtain ⟨entry, hentry, hpath⟩ := List.mem_map.1 hlisted
  have hkeys : ModulePath.segments? entry.path = some keys := by
    rw [hpath]
    exact ModulePath.segments?_ofKeys (built.wellKeyed.fit_nodes _ hold)
  have hfilled := h.modules entry hentry keys old hkeys (built.wellKeyed.infoAt?_of_mem _ hold)
  rw [h.addressed _ hinfo] at hfilled
  exact ⟨entry, hentry, hpath, Option.some.inj hfilled⟩

/-- A module of a filled tree has the versions that were staged for its path. -/
theorem versions_of_mem_nodes (h : staging.Filled request group tree after) (built : tree.Built)
    (hpaths : request.modules.map ModuleRequest.path = tree.paths)
    {keys : List String} {info : ModuleInfo} (hinfo : (keys, info) ∈ after.nodes) :
    info.version = staging.assignedVersion? (ModulePath.ofKeys keys) ∧
      info.formerVersion = (staging.specified? (ModulePath.ofKeys keys)).or
        (if keys = [] then some request.projectVersion else none) := by
  have hthere : keys ∈ tree.nodes.map Prod.fst := by
    rw [h.keys_eq]
    exact List.mem_map_of_mem hinfo
  obtain ⟨⟨known, old⟩, hold, hknown⟩ := List.mem_map.1 hthere
  obtain rfl : known = keys := hknown
  obtain ⟨entry, -, hpath, hmade⟩ := h.of_mem_nodes built hpaths hold hinfo
  -- A built tree has no versions yet.
  have hnew : old = .new old.name old.group := built.info_eq_new _ hold
  have hversion : old.version = none := by rw [hnew]; rfl
  have hformer : old.formerVersion = none := by rw [hnew]; rfl
  rw [hmade, ← hpath, Staging.version_filled, Staging.formerVersion_filled]
  by_cases hroot : known = []
  · rw [if_pos hroot, if_pos hroot, ModuleInfo.version_asRoot, hversion, Option.or_none]
    exact ⟨rfl, rfl⟩
  · rw [if_neg hroot, if_neg hroot, hversion, hformer, Option.or_none]
    exact ⟨rfl, rfl⟩

end Staging.Filled

/-! ### Published trees -/

namespace ModuleTree

/-- A module of a tree keeps its keys, its name and its group. Only a root without a group gets
what the groups right below it have in common. -/
structure Keeps (tree : ModuleTree) (before after : List String × ModuleInfo) : Prop where
  keys : before.1 = after.1
  name : after.2.name = before.2.name
  group : if after.1 = [] then tree.RootGroup after.2.group else after.2.group = before.2.group

/-- A module of a tree gets the versions that its registration asks for. Its version is the one
meant for its path or else the new version of the build, unless versions are left alone. The root
falls back to the first version that any module declares as its former one. -/
structure Gets (tree : ModuleTree) (policy : BarrierPolicy) (modules : List Registered)
    (newVersion : String) (entry : Registered) (after : List String × ModuleInfo) : Prop where
  path : entry.1 = ModulePath.ofKeys after.1
  version : after.2.version =
    if policy.versionModification then
      some ((tree.lastMeaning? policy.moduleVersions entry.1).getD newVersion)
    else entry.2.declaredVersion?
  formerVersion : after.2.formerVersion = entry.2.declaredVersion?.or
    (if after.1 = [] then modules.findSome? fun other => other.2.declaredVersion? else none)

/-- A tree with the modules of another one, where each module got the versions of the one
registration for its path. -/
structure Published (tree : ModuleTree) (policy : BarrierPolicy) (modules : List Registered)
    (newVersion : String) (result : ModuleTree) : Prop where
  paths : result.paths = tree.paths
  distinct : result.paths.Nodup
  shape : List.Forall₂ tree.Keeps tree.nodes result.nodes
  versions : List.Forall₂ (tree.Gets policy modules newVersion) modules result.nodes

end ModuleTree

theorem Staging.Filled.forall₂_keeps {staging : Staging} {request : Request} {group : String}
    {tree after : ModuleTree} (h : staging.Filled request group tree after) (built : tree.Built)
    (hpaths : request.modules.map ModuleRequest.path = tree.paths)
    (hgroup : tree.RootGroup group) : List.Forall₂ tree.Keeps tree.nodes after.nodes := by
  refine forall₂_of_map_eq h.keys_eq ?_
  rintro ⟨keys, old⟩ hold ⟨others, info⟩ hinfo hkeys
  obtain rfl : keys = others := hkeys
  obtain ⟨entry, -, -, hmade⟩ := h.of_mem_nodes built hpaths hold hinfo
  by_cases hroot : keys = []
  · rw [if_pos hroot] at hmade
    refine ⟨rfl, by rw [hmade]; rfl, ?_⟩
    rw [if_pos hroot, hmade]
    exact hgroup
  · rw [if_neg hroot] at hmade
    refine ⟨rfl, by rw [hmade]; rfl, ?_⟩
    rw [if_neg hroot, hmade]
    rfl

theorem Barrier.Success.published {barrier : Barrier} {modules : List Registered}
    {combined : Request} {answer adjusted : Response} {result : ModuleTree}
    {handle : AlignmentHandle} {policy : BarrierPolicy} {tree : ModuleTree}
    (success : barrier.Success modules combined answer adjusted result handle)
    (htree : barrier.tree = tree) (built : tree.Built)
    (hself : ∀ path ∈ tree.paths, tree.resolve path = .ok path)
    (hpaths : modules.map Prod.fst = tree.paths)
    (hmodification : barrier.policy.versionModification = policy.versionModification)
    (hversions : ∀ path, barrier.policy.moduleVersions.find? path
      = tree.lastMeaning? policy.moduleVersions path) :
    tree.Published policy modules handle.newProjectVersion result := by
  subst htree
  obtain ⟨skipped, hstaged⟩ := success.staged
  obtain ⟨hstage, -⟩ := of_stageResponse_eq_ok hstaged
  obtain ⟨-, hversion, hmodules⟩ := of_combinedRequest_eq_ok success.request
  have hrestricted : barrier.aligner.restricted combined
      = combined.without barrier.aligner.exclusions := Exclusion.foldl_apply _ _
  -- Exclusions take dependencies out of a request, never a module.
  have hlisted : (barrier.aligner.restricted combined).modules.map ModuleRequest.path
      = barrier.tree.paths := by
    rw [hrestricted, Request.without, hmodules, ← hpaths]
    simp only [List.map_map]
    rfl
  obtain ⟨group, hgroup, hfilled⟩ := Staging.filled_of_stage_eq_ok built hself hlisted hstage
  have hsame : result.paths = barrier.tree.paths := hfilled.outline.paths_eq
  have hdistinct := ModuleTree.nodup_paths built.wellKeyed
  refine ⟨hsame, hsame ▸ hdistinct, hfilled.forall₂_keeps built hlisted hgroup, ?_⟩
  refine forall₂_of_map_eq (hpaths.trans hsame.symm) ?_
  rintro entry hentry ⟨keys, info⟩ hinfo hpath
  obtain ⟨hnow, hformer⟩ := hfilled.versions_of_mem_nodes built hlisted hinfo
  have hdeclared : ∀ response newVersion,
      (barrier.staging modules response newVersion).specified? entry.1
        = entry.2.declaredVersion? := by
    intro response newVersion
    exact specified?_staging (hpaths ▸ hdistinct) hentry
  refine ⟨hpath, ?_, ?_⟩
  · rw [hnow, ← hpath, Staging.assignedVersion?_eq, hdeclared, ← hversions, ← hmodification]
    rfl
  · rw [hformer, ← hpath, hdeclared, ← projectVersion?_eq, hversion, hrestricted]
    rfl

theorem Barrier.declaredVersion?_sift (barrier : Barrier) (entry : Registered) :
    (barrier.sift entry).2.declaredVersion? = entry.2.declaredVersion? := by
  rw [Registration.declaredVersion?, Registration.declaredVersion?, sift]

/-- What a barrier leaves out of the registrations says nothing about versions. -/
theorem ModuleTree.Published.of_sift {barrier : Barrier} {tree result : ModuleTree}
    {policy : BarrierPolicy} {modules : List Registered} {newVersion : String}
    (h : tree.Published policy (modules.map barrier.sift) newVersion result) :
    tree.Published policy modules newVersion result := by
  refine ⟨h.paths, h.distinct, h.shape, (List.forall₂_map_left_iff.1 h.versions).imp ?_⟩
  intro entry node gets
  have hnow := gets.version
  have hformer := gets.formerVersion
  rw [barrier.declaredVersion?_sift] at hnow hformer
  simp only [List.findSome?_map, Function.comp_def, barrier.declaredVersion?_sift] at hformer
  exact ⟨gets.path, hnow, hformer⟩

/-- The tree of a completed build is published for its registrations, one for every module. -/
theorem Session.published_of_completed {tree : ModuleTree} {aligner : Aligner}
    {policy : BarrierPolicy} {fresh : Barrier} (built : tree.Built)
    (hself : ∀ path ∈ tree.paths, tree.resolve path = .ok path)
    (made : Barrier.new tree aligner policy = .ok fresh) (previous : Option ModuleTree)
    (registrations : List Registration) (schedule : List Nat) {session : Session}
    (hsession : session
      = (Session.start (fresh.seededWith previous) registrations).run schedule)
    {handle : AlignmentHandle} (hhandle : session.barrier.finishedHandle = .ok handle)
    {result : ModuleTree} (hmodel : session.barrier.finishedModel = .ok result) :
    session.Registers tree (session.registered tree.paths) ∧
      tree.Published policy (session.registered tree.paths) handle.newProjectVersion result := by
  have opened := Barrier.opened_seededWith made previous
  obtain ⟨registers, -, combined, answer, adjusted, success⟩ :=
    success_of_completed built opened registrations schedule hsession hhandle hmodel
  obtain ⟨versions, hversions, hpolicy⟩ := Barrier.policy_of_new made
  have hpaths : ((session.registered tree.paths).map (fresh.seededWith previous).sift).map Prod.fst
      = tree.paths := by
    rw [List.map_map]
    exact registers.paths
  have hmodification : (fresh.seededWith previous).policy.versionModification
      = policy.versionModification := by
    rw [Barrier.policy_seededWith, hpolicy]
  have hgiven : ∀ path, (fresh.seededWith previous).policy.moduleVersions.find? path
      = tree.lastMeaning? policy.moduleVersions path := by
    rw [Barrier.policy_seededWith, hpolicy]
    exact Barrier.find?_resolveVersions hversions
  have published :=
    success.published opened.tree_eq built hself hpaths hmodification hgiven
  exact ⟨registers, published.of_sift⟩

namespace NestedBuild

def tree : ModuleTree :=
  .node (.new "all" " ")
    [("api", .node (.new "api" "org.acme.api") [("http", .single (.new "http" ""))]),
      ("core", .single (.new "kernel" "org.acme.core")),
      ("docs", .single (.new "docs" ""))]

theorem built : tree.Built := by
  have hcore : ModuleTree.add ":core" (.new "kernel" "org.acme.core") (.single (.new "all" " "))
      = .ok (.node (.new "all" " ") [("core", .single (.new "kernel" "org.acme.core"))]) := rfl
  have hdocs : ModuleTree.add ":docs" (.new "docs" "")
      (.node (.new "all" " ") [("core", .single (.new "kernel" "org.acme.core"))])
      = .ok (.node (.new "all" " ") [("core", .single (.new "kernel" "org.acme.core")),
        ("docs", .single (.new "docs" ""))]) := rfl
  have hapi : ModuleTree.add ":api" (.new "api" "org.acme.api")
      (.node (.new "all" " ") [("core", .single (.new "kernel" "org.acme.core")),
        ("docs", .single (.new "docs" ""))])
      = .ok (.node (.new "all" " ") [("api", .single (.new "api" "org.acme.api")),
        ("core", .single (.new "kernel" "org.acme.core")),
        ("docs", .single (.new "docs" ""))]) := rfl
  have hhttp : ModuleTree.add ":api:http" (.new "http" "")
      (.node (.new "all" " ") [("api", .single (.new "api" "org.acme.api")),
        ("core", .single (.new "kernel" "org.acme.core")),
        ("docs", .single (.new "docs" ""))]) = .ok tree := rfl
  exact .add (.add (.add (.add (.root "all" " ") hcore) hdocs) hapi) hhttp

theorem paths_self : ∀ path ∈ tree.paths, tree.resolve path = .ok path :=
  ModuleTree.paths_self_of_locatePath? (by decide)

def aligner : Aligner :=
  { authority := none, source := .disabled
    adjustments := [.projectVersion { versionOverride := some "3.0" }] }

/-- One module has a version of its own by its name and one by its path, another one by both. -/
def policy : BarrierPolicy :=
  { moduleVersions := [(":core", "4.0"), (":docs", "5.0"), ("http", "6.0"), ("kernel", "7.0")] }

def barrier : Barrier :=
  { aligner
    policy := { moduleVersions := [(":api:http", "6.0"), (":core", "7.0"), (":docs", "5.0")] }
    order := [":", ":api", ":api:http", ":core", ":docs"]
    remaining := [":", ":api", ":api:http", ":core", ":docs"]
    tree }

def modules : List Registration :=
  [⟨"kernel", ⟨"org.acme.core", "kernel", "1.1"⟩, []⟩, ⟨":docs", ⟨"", "docs", ""⟩, []⟩,
    ⟨":api:http", ⟨"", "http", "1.3"⟩, []⟩, ⟨":", ⟨" ", "all", "unspecified"⟩, []⟩,
    ⟨"api", ⟨"org.acme.api", "api", "1.5"⟩, []⟩]

end NestedBuild

open NestedBuild in
/-- A root without group and version gets both from the modules below it, and a module with two
versions of its own gets the later one. -/
theorem Session.published_of_nested_build :
    let session := (Session.start (NestedBuild.barrier.seededWith none) modules).run
      [0, 1, 2, 3, 4, 0, 1, 2, 3, 4, 4, 4]
    let handle : AlignmentHandle := ⟨"3.0", true, []⟩
    session.barrier.phase = .completed handle ∧
      session.barrier.tree.nodes =
        [([], ⟨"all", "org.acme", some "3.0", some "1.5", []⟩),
          (["api"], ⟨"api", "org.acme.api", some "3.0", some "1.5", []⟩),
          (["api", "http"], ⟨"http", "", some "6.0", some "1.3", []⟩),
          (["core"], ⟨"kernel", "org.acme.core", some "7.0", some "1.1", []⟩),
          (["docs"], ⟨"docs", "", some "5.0", none, []⟩)] ∧
      session.Registers tree (session.registered tree.paths) ∧
      tree.Published policy (session.registered tree.paths) "3.0" session.barrier.tree := by
  intro session handle
  have hphase : session.barrier.phase = .completed handle := by decide +kernel
  obtain ⟨hhandle, hmodel⟩ := Barrier.finished_of_completed hphase
  have made : Barrier.new tree aligner policy = .ok NestedBuild.barrier := rfl
  exact ⟨hphase, by decide +kernel, published_of_completed built paths_self made none modules
    [0, 1, 2, 3, 4, 0, 1, 2, 3, 4, 4, 4] rfl hhandle hmodel⟩

end BuildAlignment
