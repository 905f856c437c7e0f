import BuildAlignment.Alignment.Aligner

/-!
# Aligners that are put together

An aligner is put together from exclusions and adjustments. It keeps the adjustments in ascending
order, and those of one place in the order in which they came.

* `Aligner.assembled` is the aligner with some exclusions and adjustments.
* `Aligner.restricted_assembled`: a dependency is left out when some exclusion covers it.
* `Aligner.adjusted_assembled`: the override layers are those of the adjustments, in the order in
  which these came, and the dynamic dependencies are pinned when some adjustment does so.
-/

namespace BuildAlignment

/-! ### Insertion in order -/

section Ordered

variable {α β : Type} {order : α → Int}

theorem insertOrdered_ascending (item : α) {items : List α}
    (h : items.Pairwise fun first second => order first ≤ order second) :
    (insertOrdered order item items).Pairwise fun first second => order first ≤ order second := by
  induction items with
  | nil => exact List.pairwise_singleton _ _
  | cons head rest ih =>
    obtain ⟨hhead, hrest⟩ := List.pairwise_cons.1 h
    rw [insertOrdered]
    split
    · rename_i hlt
      refine List.pairwise_cons.2 ⟨?_, h⟩
      intro other hother
      rcases List.mem_cons.1 hother with rfl | hmem
      · omega
      · have hle := hhead other hmem
        omega
    · rename_i hnot
      refine List.pairwise_cons.2 ⟨?_, ih hrest⟩
      intro other hother
      rcases List.mem_cons.1 ((insertOrdered_perm order item rest).mem_iff.1 hother) with
        rfl | hmem
      · omega
      · exact hhead other hmem

/-- What is taken from items of one place is taken from a new item last. -/
theorem filterMap_insertOrdered {take : α → Option β} (item : α) {items : List α}
    (hplace : ∀ first second, (take first).isSome → (take second).isSome →
      order first = order second)
    (h : items.Pairwise fun first second => order first ≤ order second) :
    (insertOrdered order item items).filterMap take
      = items.filterMap take ++ (take item).toList := by
  induction items with
  | nil =>
    rw [insertOrdered, List.filterMap_cons]
    cases take item with
    | none => rfl
    | some value => rfl
  | cons head rest ih =>
    obtain ⟨hhead, hrest⟩ := List.pairwise_cons.1 h
    rw [insertOrdered]
    split
    · rename_i hlt
      cases hitem : take item with
      | none => rw [List.filterMap_cons_none hitem, Option.toList_none, List.append_nil]
      | some value =>
        -- Everything behind the new item has a later place.
        have hnone : (head :: rest).filterMap take = [] := by
          rw [List.filterMap_eq_nil_iff]
          intro other hother
          have hlater : order item < order other := by
            rcases List.mem_cons.1 hother with rfl | hmem
            · exact hlt
            · have hle := hhead other hmem
              omega
          cases hother : take other with
          | none => rfl
          | some _ =>
            have heq := hplace item other (by rw [hitem]; rfl) (by rw [hother]; rfl)
            omega
        rw [List.filterMap_cons_some hitem, hnone]
        rfl
    · rw [List.filterMap_cons, List.filterMap_cons, ih hrest]
      cases take head with
      | none => rfl
      | some value => rfl

def insertAllOrdered (order : α → Int) (added items : List α) : List α :=
  added.foldl (fun sorted item => insertOrdered order item sorted) items

theorem insertAllOrdered_cons (order : α → Int) (item : α) (added items : List α) :
    insertAllOrdered order (item :: added) items
      = insertAllOrdered order added (insertOrdered order item items) := rfl

/-- What is taken from items of one place is taken in the order in which the items came. -/
theorem filterMap_insertAllOrdered {take : α → Option β}
    (hplace : ∀ first second, (take first).isSome → (take second).isSome →
      order first = order second) (added : List α) {items : List α}
    (h : items.Pairwise fun first second => order first ≤ order second) :
    (insertAllOrdered order added items).filterMap take
      = items.filterMap take ++ added.filterMap take := by
  induction added generalizing items with
  | nil => exact (List.append_nil _).symm
  | cons item rest ih =>
    rw [insertAllOrdered_cons, ih (insertOrdered_ascending item h),
      filterMap_insertOrdered item hplace h, List.append_assoc, List.filterMap_cons]
    cases take item with
    | none => rfl
    | some value => rfl

theorem insertAllOrdered_perm (order : α → Int) (added items : List α) :
    (insertAllOrdered order added items).Perm (items ++ added) := by
  induction added generalizing items with
  | nil =>
    rw [List.append_nil]
    exact List.Perm.refl _
  | cons item rest ih =>
    refine (ih (insertOrdered order item items)).trans ?_
    refine ((insertOrdered_perm order item items).append_right rest).trans ?_
    exact List.perm_middle.symm

end Ordered

/-! ### Aligners -/

namespace Adjustment

def layer? : Adjustment → Option OverrideLayer
  | override rules => some rules
  | projectVersion _ => none
  | pinDynamic => none

/-- The settings by which an adjustment sets the version of the build. -/
def versionSettings? : Adjustment → Option ProjectVersionSettings
  | override _ => none
  | projectVersion settings => some settings
  | pinDynamic => none

/-- Whether an adjustment pins the dynamic dependencies. -/
def pinsDynamic : Adjustment → Bool
  | override _ => false
  | projectVersion _ => false
  | pinDynamic => true

/-- All overrides have one place. -/
theorem order_eq_of_layer? (first second : Adjustment) (hfirst : first.layer?.isSome)
    (hsecond : second.layer?.isSome) : first.order = second.order := by
  cases first with
  | override rules =>
    cases second with
    | override others => rfl
    | projectVersion settings => cases hsecond
    | pinDynamic => cases hsecond
  | projectVersion settings => cases hfirst
  | pinDynamic => cases hfirst

end Adjustment

def Request.without (request : Request) (exclusions : List Exclusion) : Request :=
  { request with
    modules := request.modules.map fun entry =>
      { entry with
        dependencies := entry.dependencies.filter fun dependency =>
          !exclusions.any fun exclusion => exclusion.covers dependency.declared entry.owner } }

theorem Exclusion.foldl_apply (exclusions : List Exclusion) (request : Request) :
    exclusions.foldl (fun current exclusion => exclusion.apply current) request
      = request.without exclusions := by
  induction exclusions generalizing request with
  | nil =>
    have hall : ∀ entry : ModuleRequest, { entry with
        dependencies := entry.dependencies.filter fun _ => !false } = entry := by
      intro entry
      have hsame : entry.dependencies.filter (fun _ => !false) = entry.dependencies :=
        List.filter_eq_self.2 fun _ _ => rfl
      rw [hsame]
    simp only [List.foldl_nil, Request.without, List.any_nil, hall, List.map_id']
  | cons exclusion rest ih =>
    rw [List.foldl_cons, ih, Request.without, Request.without, apply]
    simp only [List.map_map]
    congr 1
    refine List.map_congr_left ?_
    intro entry _
    simp only [Function.comp_apply, List.filter_filter, List.any_cons, Bool.not_or, Bool.and_comm]

theorem Aligner.paths_restricted (aligner : Aligner) (request : Request) :
    (aligner.restricted request).modules.map ModuleRequest.path
      = request.modules.map ModuleRequest.path := by
  rw [restricted, Exclusion.foldl_apply, Request.without, List.map_map]
  rfl

/-- Exclusions leave the modules of a request their owners, and give them no dependencies. -/
theorem Aligner.mem_of_mem_restricted {aligner : Aligner} {request : Request}
    {entry : ModuleRequest} (h : entry ∈ (aligner.restricted request).modules) :
    ∃ kept ∈ request.modules, kept.path = entry.path ∧ kept.owner = entry.owner ∧
      entry.dependencies ⊆ kept.dependencies := by
  rw [restricted, Exclusion.foldl_apply, Request.without] at h
  obtain ⟨kept, hkept, rfl⟩ := List.mem_map.1 h
  exact ⟨kept, hkept, rfl, rfl, List.filter_sublist.subset⟩

theorem Aligner.projects_restricted (aligner : Aligner) (request : Request) :
    (aligner.restricted request).projects = request.projects := by
  rw [restricted, Exclusion.foldl_apply]
  rfl

theorem Aligner.projectVersion_restricted (aligner : Aligner) (request : Request) :
    (aligner.restricted request).projectVersion = request.projectVersion := by
  rw [restricted, Exclusion.foldl_apply]
  rfl

theorem NewVersions.mem_of_find? {versions : NewVersions} {coordinate : Coordinate}
    {version : String} (h : versions.find? coordinate = some version) :
    (coordinate, version) ∈ versions := by
  induction versions with
  | nil => cases h
  | cons entry rest ih =>
    rw [find?] at h
    split at h
    · rename_i hknown
      cases h
      rw [← hknown]
      exact List.mem_cons_self
    · exact List.mem_cons_of_mem _ (ih h)

/-- A response after some adjustments, as far as versions of dependencies go. -/
structure Response.Adjusted (request : Request) (response : Response)
    (adjustments : List Adjustment) (adjusted : Response) : Prop where
  versions : adjusted.versions = response.versions
  layers : adjusted.layers = response.layers ++ adjustments.filterMap Adjustment.layer?
  pinned : ∀ coordinate, coordinate ∈ adjusted.pinned ↔ coordinate ∈ response.pinned ∨
    adjustments.any Adjustment.pinsDynamic ∧ coordinate ∈ request.dynamicCoordinates

theorem Adjustment.adjusted_of_applied? {adjustment : Adjustment} {request : Request}
    {response adjusted : Response} (h : adjustment.applied? request response = some adjusted) :
    response.Adjusted request [adjustment] adjusted := by
  cases adjustment with
  | override rules =>
    cases h
    exact ⟨rfl, rfl, by simp [Response.pushLayer, pinsDynamic]⟩
  | projectVersion settings =>
    obtain ⟨version, -, rfl⟩ := Option.map_eq_some_iff.1 h
    exact ⟨rfl, (List.append_nil _).symm, by simp [Response.setProjectVersion, pinsDynamic]⟩
  | pinDynamic =>
    cases h
    exact ⟨rfl, (List.append_nil _).symm, by simp [Response.pin, pinsDynamic]⟩

theorem Response.adjusted_of_foldlM {adjustments : List Adjustment} {request : Request}
    {response adjusted : Response}
    (h : adjustments.foldlM (fun current adjustment => adjustment.applied? request current)
      response = some adjusted) : response.Adjusted request adjustments adjusted := by
  induction adjustments generalizing response with
  | nil =>
    cases h
    exact ⟨rfl, (List.append_nil _).symm, by simp⟩
  | cons adjustment rest ih =>
    rw [List.foldlM_cons] at h
    obtain ⟨next, hnext, hrest⟩ := Option.bind_eq_some_iff.1 h
    have hfirst := Adjustment.adjusted_of_applied? hnext
    have hlater := ih hrest
    refine ⟨hlater.versions.trans hfirst.versions, ?_, ?_⟩
    · rw [hlater.layers, hfirst.layers, List.append_assoc, ← List.filterMap_append]
      rfl
    · intro coordinate
      rw [hlater.pinned, hfirst.pinned, List.any_cons, List.any_cons, List.any_nil]
      simp only [Bool.or_eq_true, Bool.or_false]
      rw [or_and_right, or_assoc]

namespace Aligner

/-- The aligner with some exclusions and some adjustments, which came in this order. -/
def assembled (authority : Option Authority) (source : DependencySource)
    (exclusions : List Exclusion) (adjustments : List Adjustment) : Aligner :=
  adjustments.foldl withAdjustment (exclusions.foldl withExclusion { authority, source })

theorem assembled_eq (authority : Option Authority) (source : DependencySource)
    (exclusions : List Exclusion) (adjustments : List Adjustment) :
    assembled authority source exclusions adjustments =
      { authority, source
        exclusions := insertAllOrdered Exclusion.order exclusions []
        adjustments := insertAllOrdered Adjustment.order adjustments [] } := by
  have hexclusions : ∀ aligner : Aligner, exclusions.foldl withExclusion aligner
      = { aligner with
          exclusions := insertAllOrdered Exclusion.order exclusions aligner.exclusions } := by
    induction exclusions with
    | nil =>
      intro aligner
      rfl
    | cons exclusion rest ih =>
      intro aligner
      rw [List.foldl_cons, ih]
      rfl
  have hadjustments : ∀ aligner : Aligner, adjustments.foldl withAdjustment aligner
      = { aligner with
          adjustments := insertAllOrdered Adjustment.order adjustments aligner.adjustments } := by
    induction adjustments with
    | nil =>
      intro aligner
      rfl
    | cons adjustment rest ih =>
      intro aligner
      rw [List.foldl_cons, ih]
      rfl
  rw [assembled, hexclusions, hadjustments]

variable {authority : Option Authority} {source : DependencySource}
  {exclusions : List Exclusion} {adjustments : List Adjustment}

/-- In what order the exclusions came does not matter. -/
theorem restricted_assembled (request : Request) :
    (assembled authority source exclusions adjustments).restricted request
      = request.without exclusions := by
  have hperm := insertAllOrdered_perm Exclusion.order exclusions []
  rw [restricted, Exclusion.foldl_apply, assembled_eq, Request.without, Request.without]
  simp only [hperm.any_eq, List.nil_append]

/-- The override layers come in the order of the adjustments that add them. -/
theorem adjusted_assembled {request : Request} {response adjusted : Response}
    (h : (assembled authority source exclusions adjustments).adjusted? request response
      = some adjusted) : response.Adjusted request adjustments adjusted := by
  rw [assembled_eq] at h
  have hadjusted := Response.adjusted_of_foldlM h
  have hlayers := filterMap_insertAllOrdered Adjustment.order_eq_of_layer? adjustments
    List.Pairwise.nil
  have hperm := insertAllOrdered_perm Adjustment.order adjustments []
  refine ⟨hadjusted.versions, ?_, ?_⟩
  · rw [hadjusted.layers]
    exact congrArg (response.layers ++ ·) hlayers
  · intro coordinate
    rw [hadjusted.pinned, hperm.any_eq, List.nil_append]

end Aligner

end BuildAlignment
