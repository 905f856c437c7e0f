import BuildAlignment.Proofs.Alignment.Exclusion

/-!
# Changes in order of arrival

Exclusions and adjustments are registered with an aligner one after another, in any mixture.

* `StablySorted` says what an ordered list is: what arrived, in ascending order of the places, and at
  each place in order of arrival. `StablySorted.insert` keeps it, and by `StablySorted.ext` there is
  only one such list.
* `Aligner.withChanges` is an aligner with changes that were registered in turn.
* `Aligner.withChanges_arrival`: its lists are stably sorted, and what an alignment comes to depends
  on the order of the overrides and on that of the changes of the version, and on nothing else of the
  order of registration.
-/

namespace BuildAlignment

/-! ### Stably sorted lists -/

section Sorted

variable {α : Type} {order : α → Int}

theorem mem_of_filter_order_eq {items others : List α}
    (hsame : ∀ place, items.filter (order · = place) = others.filter (order · = place)) {item : α}
    (h : item ∈ items) : item ∈ others := by
  have hkept : item ∈ items.filter (order · = order item) :=
    List.mem_filter.2 ⟨h, decide_eq_true rfl⟩
  rw [hsame] at hkept
  exact (List.mem_filter.1 hkept).1

theorem eq_of_filter_order_eq {items others : List α}
    (hitems : items.Pairwise fun first second => order first ≤ order second)
    (hothers : others.Pairwise fun first second => order first ≤ order second)
    (hsame : ∀ place, items.filter (order · = place) = others.filter (order · = place)) :
    items = others := by
  induction items generalizing others with
  | nil =>
    refine (List.eq_nil_iff_forall_not_mem.2 fun item hitem => ?_).symm
    exact List.not_mem_nil (mem_of_filter_order_eq (fun place => (hsame place).symm) hitem)
  | cons head rest ih =>
    have hhead := mem_of_filter_order_eq hsame List.mem_cons_self
    cases others with
    | nil => cases hhead
    | cons first later =>
      have hfirst := mem_of_filter_order_eq (fun place => (hsame place).symm) List.mem_cons_self
      obtain ⟨hbelow, hrest⟩ := List.pairwise_cons.1 hitems
      obtain ⟨hbelow', hlater⟩ := List.pairwise_cons.1 hothers
      -- Both lists begin at the lowest place, and with the first item of that place.
      have hplace : order first = order head := by
        rcases List.mem_cons.1 hfirst with rfl | hin
        · rfl
        · rcases List.mem_cons.1 hhead with rfl | hin'
          · rfl
          · exact Int.le_antisymm (hbelow' head hin') (hbelow first hin)
      have hlowest := hsame (order head)
      simp only [List.filter_cons, hplace, decide_true, if_true] at hlowest
      obtain ⟨rfl, htail⟩ := List.cons.inj hlowest
      congr 1
      refine ih hrest hlater fun place => ?_
      by_cases hthis : order head = place
      · rw [← hthis]
        exact htail
      · have hother := hsame place
        simpa only [List.filter_cons, hthis, decide_false, Bool.false_eq_true, if_false] using hother

/-- What arrived, in ascending order of the places, and at each place in order of arrival. -/
structure StablySorted (order : α → Int) (arrived sorted : List α) : Prop where
  perm : sorted.Perm arrived
  ascending : sorted.Pairwise fun first second => order first ≤ order second
  arrival : ∀ place, sorted.filter (order · = place) = arrived.filter (order · = place)

namespace StablySorted

variable {arrived others sorted found : List α}

theorem nil : StablySorted order [] [] :=
  ⟨List.Perm.refl _, List.Pairwise.nil, fun _ => rfl⟩

/-- One more item goes behind those of its place. -/
theorem insert (h : StablySorted order arrived sorted) (item : α) :
    StablySorted order (arrived ++ [item]) (insertOrdered order item sorted) := by
  refine ⟨?_, insertOrdered_ascending item h.ascending, fun place => ?_⟩
  · have hback : (arrived ++ [item]).Perm (item :: arrived) := List.perm_append_comm
    exact (insertOrdered_perm order item sorted).trans ((h.perm.cons item).trans hback.symm)
  · -- The items of one place are what a filter takes from the list.
    have hone : ∀ first second, (Option.guard (order · = place) first).isSome →
        (Option.guard (order · = place) second).isSome → order first = order second := by
      intro first second hfirst hsecond
      simp only [Option.isSome_guard, decide_eq_true_eq] at hfirst hsecond
      rw [hfirst, hsecond]
    have htaken := filterMap_insertOrdered item hone h.ascending
    rw [List.filterMap_eq_filter] at htaken
    rw [htaken, h.arrival, List.filter_append]
    congr 1
    by_cases hplace : order item = place
    · simp [Option.guard, hplace]
    · simp [Option.guard, hplace]

theorem insertAll (h : StablySorted order arrived sorted) (added : List α) :
    StablySorted order (arrived ++ added) (insertAllOrdered order added sorted) := by
  induction added generalizing arrived sorted with
  | nil =>
    rw [List.append_nil]
    exact h
  | cons item rest ih =>
    rw [List.append_cons]
    exact ih (h.insert item)

theorem ext (h : StablySorted order arrived sorted) (h' : StablySorted order others found)
    (hsame : ∀ place, arrived.filter (order · = place) = others.filter (order · = place)) :
    sorted = found :=
  eq_of_filter_order_eq h.ascending h'.ascending fun place =>
    (h.arrival place).trans ((hsame place).trans (h'.arrival place).symm)

end StablySorted

end Sorted

/-! ### What arrives at one place -/

namespace Adjustment

theorem filter_override (adjustments : List Adjustment) (rules : OverrideLayer) :
    adjustments.filter (order · = (override rules).order)
      = (adjustments.filterMap layer?).map override := by
  induction adjustments with
  | nil => rfl
  | cons adjustment rest ih =>
    cases adjustment with
    | override layer => exact congrArg (override layer :: ·) ih
    | projectVersion settings => exact ih
    | pinDynamic => exact ih

theorem filter_projectVersion (adjustments : List Adjustment) (settings : ProjectVersionSettings) :
    adjustments.filter (order · = (projectVersion settings).order)
      = (adjustments.filterMap versionSettings?).map projectVersion := by
  induction adjustments with
  | nil => rfl
  | cons adjustment rest ih =>
    cases adjustment with
    | override layer => exact ih
    | projectVersion own => exact congrArg (projectVersion own :: ·) ih
    | pinDynamic => exact ih

theorem eq_pinDynamic_of_order {adjustment : Adjustment}
    (h : adjustment.order = pinDynamic.order) : adjustment = pinDynamic := by
  cases adjustment with
  | override rules => cases h
  | projectVersion settings => cases h
  | pinDynamic => rfl

/-- The same adjustments arrive at each place, when the overrides and the changes of the version come
in one order. -/
theorem filter_order_congr {first second : List Adjustment} (hperm : first.Perm second)
    (hlayers : first.filterMap layer? = second.filterMap layer?)
    (hversions : first.filterMap versionSettings? = second.filterMap versionSettings?)
    (place : Int) :
    first.filter (order · = place) = second.filter (order · = place) := by
  by_cases hsome : ∃ adjustment ∈ first, adjustment.order = place
  · obtain ⟨adjustment, -, rfl⟩ := hsome
    cases adjustment with
    | override rules => rw [filter_override, filter_override, hlayers]
    | projectVersion settings => rw [filter_projectVersion, filter_projectVersion, hversions]
    | pinDynamic =>
      -- What pins the dynamic dependencies holds nothing else, so only its number counts.
      have hcopies : ∀ adjustments : List Adjustment,
          ∀ other ∈ adjustments.filter (order · = pinDynamic.order), other = pinDynamic :=
        fun _ other hother =>
          eq_pinDynamic_of_order (of_decide_eq_true (List.mem_filter.1 hother).2)
      rw [List.eq_replicate_of_mem (hcopies first), List.eq_replicate_of_mem (hcopies second),
        (hperm.filter _).length_eq]
  · have hnone : ∀ adjustment ∈ first, ¬ decide (adjustment.order = place) = true :=
      fun adjustment hadjustment hplace =>
        hsome ⟨adjustment, hadjustment, of_decide_eq_true hplace⟩
    rw [List.filter_eq_nil_iff.2 hnone, List.filter_eq_nil_iff.2]
    exact fun adjustment hadjustment => hnone adjustment (hperm.mem_iff.2 hadjustment)

end Adjustment

/-! ### Registering changes -/

namespace Aligner

inductive Change where
  | exclusion (exclusion : Exclusion)
  | adjustment (adjustment : Adjustment)

namespace Change

def exclusion? : Change → Option Exclusion
  | exclusion given => some given
  | adjustment _ => none

def adjustment? : Change → Option Adjustment
  | exclusion _ => none
  | adjustment given => some given

def layer? (change : Change) : Option OverrideLayer :=
  change.adjustment?.bind Adjustment.layer?

def versionSettings? (change : Change) : Option ProjectVersionSettings :=
  change.adjustment?.bind Adjustment.versionSettings?

end Change

def withChange (aligner : Aligner) : Change → Aligner
  | .exclusion given => aligner.withExclusion given
  | .adjustment given => aligner.withAdjustment given

def withChanges (aligner : Aligner) (changes : List Change) : Aligner :=
  changes.foldl withChange aligner

/-- Exclusions and adjustments do not get in each other's way. -/
theorem withChanges_eq (aligner : Aligner) (changes : List Change) :
    aligner.withChanges changes =
      { aligner with
        exclusions :=
          insertAllOrdered Exclusion.order (changes.filterMap Change.exclusion?) aligner.exclusions
        adjustments :=
          insertAllOrdered Adjustment.order (changes.filterMap Change.adjustment?)
            aligner.adjustments } := by
  induction changes generalizing aligner with
  | nil => rfl
  | cons change rest ih =>
    cases change with
    | exclusion given => exact ih (aligner.withExclusion given)
    | adjustment given => exact ih (aligner.withAdjustment given)

/-- How exclusions and adjustments are mixed makes no difference to an aligner. -/
theorem withChanges_eq_assembled (authority : Option Authority) (source : DependencySource)
    (changes : List Change) :
    withChanges { authority, source } changes
      = assembled authority source (changes.filterMap Change.exclusion?)
        (changes.filterMap Change.adjustment?) := by
  rw [withChanges_eq, assembled_eq]

/-- An alignment depends on what the exclusions leave of the request, and not on how they do it. -/
theorem align_congr {first second : Aligner} {incoming : Request}
    (hauthority : first.authority = second.authority) (hsource : first.source = second.source)
    (hadjustments : first.adjustments = second.adjustments)
    (hrestricted : first.restricted incoming = second.restricted incoming) :
    first.align incoming = second.align incoming := by
  have houtcome : ∀ wrap request response,
      first.outcomeOf wrap request response = second.outcomeOf wrap request response := by
    intro wrap request response
    rw [outcomeOf, outcomeOf, adjusted?, adjusted?, hadjustments]
  rw [align, align, hauthority, hsource, hrestricted]
  simp only [houtcome]

theorem stablySorted_withChanges (authority : Option Authority) (source : DependencySource)
    (changes : List Change) :
    StablySorted Exclusion.order (changes.filterMap Change.exclusion?)
        (withChanges { authority, source } changes).exclusions ∧
      StablySorted Adjustment.order (changes.filterMap Change.adjustment?)
        (withChanges { authority, source } changes).adjustments := by
  rw [withChanges_eq_assembled, assembled_eq]
  exact ⟨StablySorted.nil.insertAll _, StablySorted.nil.insertAll _⟩

/-- In whatever order changes are registered, the exclusions and the adjustments are kept in
ascending order, and those of one place in order of arrival. Where the same changes are registered
with the overrides in one order and the changes of the version in one order, every request comes to
the same: the same question, the same request behind the exclusions, and the same error or the same
response. -/
theorem withChanges_arrival (authority : Option Authority) (source : DependencySource) :
    (∀ changes : List Change,
      StablySorted Exclusion.order (changes.filterMap Change.exclusion?)
        (withChanges { authority, source } changes).exclusions ∧
      StablySorted Adjustment.order (changes.filterMap Change.adjustment?)
        (withChanges { authority, source } changes).adjustments) ∧
    ∀ first second : List Change, first.Perm second →
      first.filterMap Change.layer? = second.filterMap Change.layer? →
      first.filterMap Change.versionSettings? = second.filterMap Change.versionSettings? →
      ∀ incoming : Request, (withChanges { authority, source } first).align incoming
        = (withChanges { authority, source } second).align incoming := by
  refine ⟨stablySorted_withChanges authority source, ?_⟩
  intro first second hperm hlayers hversions incoming
  obtain ⟨-, hfirst⟩ := stablySorted_withChanges authority source first
  obtain ⟨-, hsecond⟩ := stablySorted_withChanges authority source second
  refine align_congr ?_ ?_ ?_ ?_
  · rw [withChanges_eq, withChanges_eq]
  · rw [withChanges_eq, withChanges_eq]
  · refine hfirst.ext hsecond (Adjustment.filter_order_congr (hperm.filterMap _) ?_ ?_)
    · rw [List.filterMap_filterMap, List.filterMap_filterMap]
      exact hlayers
    · rw [List.filterMap_filterMap, List.filterMap_filterMap]
      exact hversions
  · rw [withChanges_eq_assembled, withChanges_eq_assembled, restricted_assembled,
      restricted_assembled]
    refine incoming.without_congr fun declared owner => ?_
    simp only [(hperm.filterMap Change.exclusion?).mem_iff]

def mixedRequest : Request :=
  { projects := [⟨"org.acme", "app", "1.0"⟩]
    projectVersion := "1.0"
    modules := [{
      path := ":"
      owner := ⟨"org.acme", "app", "1.0"⟩
      dependencies := [.exact ⟨"org.lib", "base", "1.0"⟩,
        ⟨⟨"org.lib", "extra", "2.+"⟩, some ⟨"org.lib", "extra", "2.3"⟩⟩,
        .exact ⟨"org.test", "mocks", "1.0"⟩] }] }

def groupRule (group : String) : Rule :=
  ⟨group ++ ":*@*", ⟨.literal group, .wildcard, .wildcard⟩, .any⟩

/-- Two overrides that speak about the same dependencies, between changes of every other kind. -/
theorem withChanges_arrival_of_swapped :
    let front : List Change := [.adjustment .pinDynamic, .exclusion ⟨[groupRule "org.test"]⟩]
    let back : List Change := [.adjustment (.override [(groupRule "org.lib", "8.0")]),
      .exclusion ⟨[groupRule "org.log"]⟩, .adjustment (.projectVersion {}),
      .adjustment (.override [(groupRule "org.lib", "9.0")])]
    let aligner : Aligner := { authority := some fun _ => .ok [], source := .rest }
    (front ++ back).Perm (back ++ front) ∧
      (front ++ back).filterMap Change.layer? = (back ++ front).filterMap Change.layer? ∧
      (front ++ back).filterMap Change.versionSettings?
        = (back ++ front).filterMap Change.versionSettings? ∧
      (aligner.withChanges (front ++ back)).adjustments.map Adjustment.order
        = [-10, 0, 0, 2147483547] ∧
      ∃ response : Response,
        response.newProjectVersion = some "1.0-redhat-00001" ∧
        response.alignedVersion? ⟨"org.lib", "base", "1.0"⟩ ⟨"org.acme", "app", "1.0"⟩
          = some "9.0" ∧
        ∀ changes ∈ [front ++ back, back ++ front],
          (aligner.withChanges changes).align mixedRequest
            = ⟨some [⟨"org.acme", "app", "1.0"⟩, ⟨"org.lib", "base", "1.0"⟩,
                ⟨"org.lib", "extra", "2.3"⟩],
              .aligned ⟨mixedRequest.without [⟨[groupRule "org.test"]⟩], response⟩⟩ := by
  intro front back aligner
  have hperm : (front ++ back).Perm (back ++ front) := List.perm_append_comm
  have hsame := (withChanges_arrival aligner.authority aligner.source).2 _ _ hperm rfl rfl
    mixedRequest
  let response : Response :=
    { layers := [[(groupRule "org.lib", "8.0")], [(groupRule "org.lib", "9.0")]]
      pinned := [⟨"org.lib", "extra", "2.3"⟩]
      newProjectVersion := some "1.0-redhat-00001" }
  have hadjusted : (aligner.withChanges (front ++ back)).adjusted?
      (mixedRequest.without [⟨[groupRule "org.test"]⟩]) (.ofVersions [] mixedRequest.projects)
      = some response := rfl
  have hrun : (aligner.withChanges (front ++ back)).align mixedRequest
      = ⟨some [⟨"org.acme", "app", "1.0"⟩, ⟨"org.lib", "base", "1.0"⟩,
          ⟨"org.lib", "extra", "2.3"⟩],
        .aligned ⟨mixedRequest.without [⟨[groupRule "org.test"]⟩], response⟩⟩ := by
    have houtcome : (aligner.withChanges (front ++ back)).outcomeOf .aligned
        (mixedRequest.without [⟨[groupRule "org.test"]⟩]) (.ofVersions [] mixedRequest.projects)
        = .aligned ⟨mixedRequest.without [⟨[groupRule "org.test"]⟩], response⟩ := by
      rw [outcomeOf, hadjusted]
    rw [← houtcome]
    rfl
  refine ⟨hperm, rfl, rfl, rfl, response, rfl, by decide, ?_⟩
  intro changes hchanges
  simp only [List.mem_cons, List.not_mem_nil, or_false] at hchanges
  rcases hchanges with rfl | rfl
  · exact hrun
  · exact hsame.symm.trans hrun

end Aligner

end BuildAlignment
