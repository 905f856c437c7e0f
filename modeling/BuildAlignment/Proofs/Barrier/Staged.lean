import BuildAlignment.Proofs.Barrier.RootGroup
import BuildAlignment.Proofs.ModuleTree.Built

/-!
# What staging writes

A response is written into a tree module by module. Every module gets its own part, and nothing else
changes but the root.

* `Dependency.replacement?` is the replacement that staging writes for one dependency.
* `Staging.filled` is a module with its version, its former version and its replacements, the last
  one for each declared form. By `Staging.stageInfo_eq` this is what staging makes of a module that
  has no version yet.
* `Staging.Staged` says of two trees that one is the other with some modules filled in. By
  `Staging.of_stageModules_eq_ok` this is what staging makes.
* `Staging.Filled` says the same of a whole tree with its root. By `Staging.filled_of_stage_eq_ok`
  a built tree is filled in, and by `Staging.stage_isOk_iff` nothing but its root can prevent this.
* `Staging.of_stage_eq_ok`: in a built tree every module gets the replacements written for it.
* `Staging.nonAligned_find?`: a module is told to be not aligned when something is missing.
-/

namespace BuildAlignment

open ModuleTree (Addressed SameOutline infoAt?)

/-- A version, if it says something. -/
def Version.specified? (version : String) : Option String :=
  if isUnspecified version then none else some version

/-- The replacement that is written for a dependency, under the text form of its declaration. One
without a version is written down only if it is dynamic. -/
def Dependency.replacement? (version? : Coordinate → Option String) (dependency : Dependency) :
    Option (String × Coordinate) :=
  dependency.resolved.bind fun resolved =>
    match version? resolved with
    | some version => some (dependency.declared.display, resolved.withVersion version)
    | none => if dependency.isDynamic then some (dependency.declared.display, resolved) else none

theorem Dependency.fst_of_replacement? {version? : Coordinate → Option String}
    {dependency : Dependency} {entry : String × Coordinate}
    (h : dependency.replacement? version? = some entry) : entry.1 = dependency.declared.display := by
  rw [replacement?] at h
  obtain ⟨resolved, -, hentry⟩ := Option.bind_eq_some_iff.1 h
  split at hentry
  · rw [← Option.some.inj hentry]
  · split at hentry
    · rw [← Option.some.inj hentry]
    · cases hentry

namespace Staging

variable {staging : Staging}

/-! ### One module -/

def written? (staging : Staging) (owner : Coordinate) (dependency : Dependency) :
    Option (String × Coordinate) :=
  dependency.replacement? fun resolved => staging.response.alignedVersion? resolved owner

/-- Of the two writes for a dynamic dependency with an aligned version the second one stays. -/
theorem writeDependency_eq (owner : Coordinate) (info : ModuleInfo) (dependency : Dependency) :
    staging.writeDependency owner info dependency = { info with
      aligned := (staging.written? owner dependency).elim info.aligned
        fun entry => info.aligned.insert entry.1 entry.2 } := by
  rw [writeDependency, written?, Dependency.replacement?]
  cases dependency.resolved with
  | none => rfl
  | some resolved =>
    cases halign : staging.response.alignedVersion? resolved owner with
    | none =>
      by_cases hdynamic : dependency.isDynamic
      · simp [hdynamic, halign, ModuleInfo.insertAligned]
      · simp [hdynamic, halign]
    | some version =>
      by_cases hdynamic : dependency.isDynamic
      · simp [hdynamic, halign, ModuleInfo.insertAligned, Keyed.insert_insert]
      · simp [hdynamic, halign, ModuleInfo.insertAligned]

/-- The replacements of a module with those that are written for some dependencies. -/
def replaced (staging : Staging) (owner : Coordinate) (dependencies : List Dependency)
    (aligned : Keyed Coordinate) : Keyed Coordinate :=
  (dependencies.filterMap (staging.written? owner)).foldl
    (fun map entry => map.insert entry.1 entry.2) aligned

/-- Writing dependencies changes the replacements of a module and nothing else. -/
theorem foldl_writeDependency (owner : Coordinate) (dependencies : List Dependency)
    (info : ModuleInfo) :
    dependencies.foldl (staging.writeDependency owner) info
      = { info with aligned := staging.replaced owner dependencies info.aligned } := by
  induction dependencies generalizing info with
  | nil => rfl
  | cons dependency rest ih =>
    rw [List.foldl_cons, ih, writeDependency_eq, replaced, replaced, List.filterMap_cons]
    cases staging.written? owner dependency with
    | none => rfl
    | some entry => rfl

/-- The declared version of the module at a path, if it says something. -/
def specified? (staging : Staging) (path : String) : Option String :=
  Version.specified? (staging.declaredVersion path)

theorem keepDeclared_eq (path : String) (info : ModuleInfo) :
    staging.keepDeclared path info
      = { info with formerVersion := (staging.specified? path).or info.formerVersion } := by
  rw [keepDeclared, specified?, Version.specified?]
  split
  · rfl
  · rfl

/-- A module with its version, its former version and its replacements. -/
def filled (staging : Staging) (request : ModuleRequest) (info : ModuleInfo) : ModuleInfo :=
  { info with
    version := (staging.assignedVersion? request.path).or info.version
    formerVersion := (staging.specified? request.path).or info.formerVersion
    aligned := staging.replaced request.owner request.dependencies info.aligned }

theorem version_filled (request : ModuleRequest) (info : ModuleInfo) :
    (staging.filled request info).version
      = (staging.assignedVersion? request.path).or info.version := by
  rw [filled]

theorem formerVersion_filled (request : ModuleRequest) (info : ModuleInfo) :
    (staging.filled request info).formerVersion
      = (staging.specified? request.path).or info.formerVersion := by
  rw [filled]

/-- A module is filled in, unless it would get a second version. -/
theorem stageInfo_eq (request : ModuleRequest) (info : ModuleInfo) :
    staging.stageInfo request info
      = if (staging.assignedVersion? request.path).isSome && info.version.isSome then
          .error (.versionAlreadyAssigned request.path)
        else .ok (staging.filled request info) := by
  rw [stageInfo, assign, keepDeclared_eq, filled]
  cases staging.assignedVersion? request.path with
  | none => simp [Except.map, foldl_writeDependency]
  | some version =>
    simp only [ModuleInfo.assignVersion]
    cases hversion : info.version with
    | some old => simp [Except.map]
    | none => simp [Except.map, foldl_writeDependency]

theorem of_stageInfo_eq_ok {request : ModuleRequest} {old info : ModuleInfo}
    (h : staging.stageInfo request old = .ok info) : info = staging.filled request old := by
  rw [stageInfo_eq] at h
  split at h
  · cases h
  · exact (Except.ok.inj h).symm

/-! ### All modules -/

/-- One tree is the other with the modules of some requests filled in. -/
structure Staged (staging : Staging) (requests : List ModuleRequest) (before after : ModuleTree) :
    Prop where
  outline : SameOutline after before
  addressed : Addressed after
  filled : ∀ request ∈ requests, ∀ keys old, ModulePath.segments? request.path = some keys →
    infoAt? keys before = some old → infoAt? keys after = some (staging.filled request old)
  others : ∀ keys, (∀ request ∈ requests, ModulePath.segments? request.path ≠ some keys) →
    infoAt? keys after = infoAt? keys before

/-- Staging one request fills in the module at its path and no other. -/
theorem of_stageModule_eq_ok {request : ModuleRequest} {before next : ModuleTree}
    {keys : List String} {old : ModuleInfo} (haddressed : Addressed before)
    (hself : before.resolve request.path = .ok request.path)
    (hkeys : ModulePath.segments? request.path = some keys) (hold : infoAt? keys before = some old)
    (h : staging.stageModule before request = .ok next) :
    SameOutline next before ∧ Addressed next ∧ ∀ other, infoAt? other next
      = if other = keys then some (staging.filled request old) else infoAt? other before := by
  rw [stageModule, ModuleTree.change_eq hself hkeys hold] at h
  cases hinfo : staging.stageInfo request old with
  | error error =>
    rw [hinfo] at h
    cases h
  | ok info =>
    rw [hinfo] at h
    cases h
    have hfilled := of_stageInfo_eq_ok hinfo
    have hname : info.name = old.name := by rw [hfilled]; rfl
    refine ⟨.updateAt_const haddressed hold hname, haddressed.updateAt _ keys, ?_⟩
    intro other
    rw [ModuleTree.infoAt?_updateAt]
    split
    · rename_i heq
      rw [heq, hold, hfilled]
      rfl
    · rfl

/-- Staging fills in the modules of all requests, if these have paths of their own. -/
theorem of_stageModules_eq_ok {requests : List ModuleRequest} {before after : ModuleTree}
    (haddressed : Addressed before)
    (hpaths : ∀ request ∈ requests, before.resolve request.path = .ok request.path ∧
      ∃ keys old, ModulePath.segments? request.path = some keys ∧ infoAt? keys before = some old)
    (hdistinct : requests.Pairwise fun first second =>
      ModulePath.segments? first.path ≠ ModulePath.segments? second.path)
    (h : staging.stageModules requests before = .ok after) :
    Staged staging requests before after := by
  induction requests generalizing before with
  | nil =>
    cases h
    refine ⟨.refl _, haddressed, ?_, fun _ _ => rfl⟩
    intro request hrequest
    cases hrequest
  | cons request rest ih =>
    obtain ⟨hfirst, hrest⟩ := List.pairwise_cons.1 hdistinct
    obtain ⟨hself, keys, old, hkeys, hold⟩ := hpaths request List.mem_cons_self
    rw [stageModules, List.foldlM_cons] at h
    cases hnext : staging.stageModule before request with
    | error error =>
      rw [hnext] at h
      cases h
    | ok next =>
      rw [hnext] at h
      replace h : staging.stageModules rest next = .ok after := h
      obtain ⟨houtline, hlisted, hupdated⟩ :=
        of_stageModule_eq_ok haddressed hself hkeys hold hnext
      have hlater : ∀ other ∈ rest, ModulePath.segments? other.path ≠ some keys := by
        intro other hother heq
        exact hfirst other hother (hkeys.trans heq.symm)
      have hready : ∀ other ∈ rest, next.resolve other.path = .ok other.path ∧
          ∃ known kept, ModulePath.segments? other.path = some known ∧
            infoAt? known next = some kept := by
        intro other hother
        obtain ⟨hself, known, kept, hknown, hkept⟩ := hpaths other (List.mem_cons_of_mem _ hother)
        have hne : known ≠ keys := fun heq => hlater other hother (heq ▸ hknown)
        refine ⟨by rw [ModuleTree.resolve_congr houtline, hself], known, kept, hknown, ?_⟩
        rw [hupdated, if_neg hne, hkept]
      have hstaged := ih hlisted hready hrest h
      refine ⟨hstaged.outline.trans houtline, hstaged.addressed, ?_, ?_⟩
      · intro other hother known kept hknown hkept
        rcases List.mem_cons.1 hother with rfl | hmem
        · -- The module just filled in is not touched again.
          rw [hkeys] at hknown
          cases hknown
          rw [hold] at hkept
          cases hkept
          rw [hstaged.others keys hlater, hupdated, if_pos rfl]
        · have hne : known ≠ keys := fun heq => hlater other hmem (heq ▸ hknown)
          refine hstaged.filled other hmem known kept hknown ?_
          rw [hupdated, if_neg hne]
          exact hkept
      · intro known hknown
        have hne : known ≠ keys :=
          fun heq => hknown request List.mem_cons_self (heq ▸ hkeys)
        rw [hstaged.others known fun other hother => hknown other (List.mem_cons_of_mem _ hother),
          hupdated, if_neg hne]

/-- Modules that have paths of their own and no versions yet can all be filled in. -/
theorem exists_stageModules {requests : List ModuleRequest} {before : ModuleTree}
    (haddressed : Addressed before)
    (hpaths : ∀ request ∈ requests, before.resolve request.path = .ok request.path ∧
      ∃ keys old, ModulePath.segments? request.path = some keys ∧
        infoAt? keys before = some old ∧ old.version = none)
    (hdistinct : requests.Pairwise fun first second =>
      ModulePath.segments? first.path ≠ ModulePath.segments? second.path) :
    ∃ after, staging.stageModules requests before = .ok after := by
  induction requests generalizing before with
  | nil => exact ⟨before, rfl⟩
  | cons request rest ih =>
    obtain ⟨hfirst, hrest⟩ := List.pairwise_cons.1 hdistinct
    obtain ⟨hself, keys, old, hkeys, hold, hversion⟩ := hpaths request List.mem_cons_self
    obtain ⟨next, hnext⟩ : ∃ next, staging.stageModule before request = .ok next := by
      rw [stageModule, ModuleTree.change_eq hself hkeys hold, stageInfo_eq, hversion]
      simp [Except.map]
    obtain ⟨houtline, hlisted, hupdated⟩ :=
      of_stageModule_eq_ok haddressed hself hkeys hold hnext
    have hready : ∀ other ∈ rest, next.resolve other.path = .ok other.path ∧
        ∃ known kept, ModulePath.segments? other.path = some known ∧
          infoAt? known next = some kept ∧ kept.version = none := by
      intro other hother
      obtain ⟨hself, known, kept, hknown, hkept, hnone⟩ :=
        hpaths other (List.mem_cons_of_mem _ hother)
      have hne : known ≠ keys := by
        rintro rfl
        exact hfirst other hother (hkeys.trans hknown.symm)
      refine ⟨by rw [ModuleTree.resolve_congr houtline, hself], known, kept, hknown, ?_, hnone⟩
      rw [hupdated, if_neg hne, hkept]
    rw [stageModules, List.foldlM_cons, hnext]
    exact ih hlisted hready hrest

/-! ### The whole tree -/

/-- One tree is the other with a former version and a group for the root, and then with the modules
of a request filled in. -/
structure Filled (staging : Staging) (request : Request) (group : String)
    (before after : ModuleTree) : Prop where
  outline : SameOutline after before
  addressed : Addressed after
  modules : ∀ entry ∈ request.modules, ∀ keys old, ModulePath.segments? entry.path = some keys →
    infoAt? keys before = some old → infoAt? keys after = some (staging.filled entry
      (if keys = [] then old.asRoot request.projectVersion group else old))

/-- Once the root of a built tree is filled in, the modules still have their paths and no versions. -/
theorem ready_of_built {requests : List ModuleRequest} {tree : ModuleTree} (built : tree.Built)
    (hself : ∀ path ∈ tree.paths, tree.resolve path = .ok path)
    (hpaths : requests.map ModuleRequest.path = tree.paths) (version group : String) :
    ∀ request ∈ requests,
      (tree.updateAt (ModuleInfo.asRoot version group) []).resolve request.path
          = .ok request.path ∧
        ∃ keys old, ModulePath.segments? request.path = some keys ∧
          infoAt? keys tree = some old ∧
          infoAt? keys (tree.updateAt (ModuleInfo.asRoot version group) [])
            = some (if keys = [] then old.asRoot version group else old) ∧
          old.version = none := by
  intro request hrequest
  have hlisted : request.path ∈ tree.paths := by
    rw [← hpaths]
    exact List.mem_map_of_mem hrequest
  obtain ⟨keys, old, hkeys, -, hnode, hold⟩ := built.wellKeyed.of_mem_paths hlisted
  have hname : ∀ info : ModuleInfo, (info.asRoot version group).name = info.name := fun _ => rfl
  refine ⟨?_, keys, old, hkeys, hold, ?_, ?_⟩
  · rw [ModuleTree.resolve_congr (SameOutline.updateAt hname [] tree)]
    exact hself request.path hlisted
  · rw [ModuleTree.infoAt?_updateAt, hold]
    split
    · rfl
    · rfl
  · rw [show old = .new old.name old.group from built.info_eq_new _ hnode]
    rfl

theorem pairwise_of_built {requests : List ModuleRequest} {tree : ModuleTree} (built : tree.Built)
    (hpaths : requests.map ModuleRequest.path = tree.paths) :
    requests.Pairwise fun first second =>
      ModulePath.segments? first.path ≠ ModulePath.segments? second.path := by
  have hpairwise := built.wellKeyed.pairwise_segments?
  rw [← hpaths, List.pairwise_map] at hpairwise
  exact hpairwise

/-- Staging fills in a built tree, if its modules are those of the request. -/
theorem filled_of_stage_eq_ok {request : Request} {tree after : ModuleTree} (built : tree.Built)
    (hself : ∀ path ∈ tree.paths, tree.resolve path = .ok path)
    (hpaths : request.modules.map ModuleRequest.path = tree.paths)
    (h : stage staging request tree = .ok after) :
    ∃ group, tree.RootGroup group ∧ staging.Filled request group tree after := by
  rw [stage] at h
  split at h
  · cases h
  · rename_i started hroot
    obtain ⟨group, hgroup, rfl⟩ := of_stageRoot_eq_ok hroot
    have hname : ∀ info : ModuleInfo, (info.asRoot request.projectVersion group).name = info.name :=
      fun _ => rfl
    have houtline := SameOutline.updateAt hname [] tree
    have haddressed : Addressed tree := built.wellKeyed.infoAt?_of_mem
    have hready := ready_of_built built hself hpaths request.projectVersion group
    have hnamed : ∀ other ∈ request.modules,
        (tree.updateAt (ModuleInfo.asRoot request.projectVersion group) []).resolve other.path
            = .ok other.path ∧
          ∃ keys old, ModulePath.segments? other.path = some keys ∧ infoAt? keys
            (tree.updateAt (ModuleInfo.asRoot request.projectVersion group) []) = some old := by
      intro other hother
      obtain ⟨hmeans, keys, old, hkeys, -, hstarted, -⟩ := hready other hother
      exact ⟨hmeans, keys, _, hkeys, hstarted⟩
    have hstaged :=
      of_stageModules_eq_ok (haddressed.updateAt _ []) hnamed (pairwise_of_built built hpaths) h
    refine ⟨group, hgroup, hstaged.outline.trans houtline, hstaged.addressed, ?_⟩
    intro entry hentry keys old hkeys hold
    obtain ⟨-, known, kept, hknown, hkept, hstarted, -⟩ := hready entry hentry
    rw [hkeys] at hknown
    cases hknown
    rw [hold] at hkept
    cases hkept
    exact hstaged.filled entry hentry keys _ hkeys hstarted

/-- The only thing that can be missing to fill in a built tree is a group for its root. -/
theorem stage_isOk_iff {request : Request} {tree : ModuleTree} (built : tree.Built)
    (hself : ∀ path ∈ tree.paths, tree.resolve path = .ok path)
    (hpaths : request.modules.map ModuleRequest.path = tree.paths) :
    (∃ after, stage staging request tree = .ok after)
      ↔ ∃ started, stageRoot request.projectVersion tree = .ok started := by
  rw [stage]
  cases hroot : stageRoot request.projectVersion tree with
  | error error => simp
  | ok started =>
    obtain ⟨group, -, rfl⟩ := of_stageRoot_eq_ok hroot
    have haddressed : Addressed tree := built.wellKeyed.infoAt?_of_mem
    refine iff_of_true (exists_stageModules (haddressed.updateAt _ []) ?_
      (pairwise_of_built built hpaths)) ⟨_, rfl⟩
    intro other hother
    obtain ⟨hmeans, keys, old, hkeys, -, hstarted, hversion⟩ :=
      ready_of_built built hself hpaths request.projectVersion group other hother
    refine ⟨hmeans, keys, _, hkeys, hstarted, ?_⟩
    split
    · exact hversion
    · exact hversion

/-- After staging every module of a built tree has the replacements that were written for its
dependencies, and no others. -/
theorem of_stage_eq_ok {request : Request} {tree after : ModuleTree} (built : tree.Built)
    (hself : ∀ path ∈ tree.paths, tree.resolve path = .ok path)
    (hpaths : request.modules.map ModuleRequest.path = tree.paths)
    (h : stage staging request tree = .ok after) {entry : ModuleRequest}
    (hentry : entry ∈ request.modules) :
    ∃ found, after.find entry.path = .ok found ∧ found.info.aligned =
      Keyed.ofEntries (entry.dependencies.filterMap (staging.written? entry.owner)) := by
  obtain ⟨group, -, hfilled⟩ := filled_of_stage_eq_ok built hself hpaths h
  have hlisted : entry.path ∈ tree.paths := by
    rw [← hpaths]
    exact List.mem_map_of_mem hentry
  obtain ⟨keys, old, hkeys, -, hnode, hold⟩ := built.wellKeyed.of_mem_paths hlisted
  have hafter := hfilled.modules entry hentry keys old hkeys hold
  have hfound : after.resolve entry.path = .ok entry.path := by
    rw [ModuleTree.resolve_congr hfilled.outline]
    exact hself entry.path hlisted
  obtain ⟨found, hfind, heq⟩ := ModuleTree.find_eq hfound hkeys hafter
  refine ⟨found, hfind, ?_⟩
  -- Nothing was written into a built tree before.
  have hempty : old.aligned = [] := by
    rw [show old = .new old.name old.group from built.info_eq_new _ hnode]
    rfl
  have hbefore : (if keys = [] then old.asRoot request.projectVersion group else old).aligned
      = [] := by
    split
    · exact hempty
    · exact hempty
  rw [heq, filled, replaced, hbefore]
  rfl

/-! ### What was not aligned -/

/-- A module is told to be not aligned when something is missing. -/
theorem nonAligned_find? (staging : Staging) {requests : List ModuleRequest}
    (hdistinct : (requests.map ModuleRequest.path).Nodup) {request : ModuleRequest}
    (hrequest : request ∈ requests) :
    (staging.nonAligned requests).find? request.path
      = if staging.missing request = [] then none else some (staging.missing request) := by
  have hkeys : ((requests.map fun request => (request.path, staging.missing request)).map
      Prod.fst) = requests.map ModuleRequest.path := List.map_map
  have hmem : (request.path, staging.missing request)
      ∈ requests.map fun request => (request.path, staging.missing request) :=
    List.mem_map_of_mem hrequest
  have hall : ((requests.map fun request => (request.path, staging.missing request)).map
      Prod.fst).Nodup := by
    rw [hkeys]
    exact hdistinct
  rw [nonAligned]
  split
  · rename_i hnone
    refine Keyed.find?_ofEntries_eq_none ?_
    intro hkey
    obtain ⟨entry, hentry, heq⟩ := List.mem_map.1 hkey
    obtain ⟨hlisted, hsome⟩ := List.mem_filter.1 hentry
    have hsame := Keyed.find?_of_mem hall hlisted
    rw [heq, Keyed.find?_of_mem hall hmem, hnone] at hsame
    rw [← Option.some.inj hsame] at hsome
    cases hsome
  · rename_i hsome
    refine Keyed.find?_ofEntries_of_mem ?_ (List.mem_filter.2 ⟨hmem, by simpa using hsome⟩)
    exact hall.sublist (List.filter_sublist.map Prod.fst)

end Staging

end BuildAlignment
