import BuildAlignment.Proofs.Barrier.Phases
import BuildAlignment.Proofs.ModuleTree.Built
import Mathlib.Data.List.Nodup

/-!
# What a barrier collects

A barrier of a built tree waits for distinct modules. When all of them have registered, it hands out
the registrations in path order.

* `Barrier.Ready` holds of the barriers that wait for distinct modules.
* `Barrier.map_fst_inOrder`: the collected registrations are those of all modules, in path order.
* `Barrier.inOrder_congr`: in what order they came in does not matter.
-/

namespace BuildAlignment

/-! ### Before anyone has registered -/

theorem eraseDups_of_nodup {items : List String} (h : items.Nodup) : items.eraseDups = items := by
  induction items with
  | nil => rfl
  | cons item rest ih =>
    rw [List.nodup_cons] at h
    have hfilter : rest.filter (fun other => !other == item) = rest := by
      rw [List.filter_eq_self]
      intro other hother
      have hne : other ≠ item := fun heq => h.1 (heq ▸ hother)
      simpa using hne
    rw [List.eraseDups_cons, hfilter, ih h.2]

/-- A barrier that waits for distinct modules, which are all that a name can mean. -/
structure Barrier.Ready (start : Barrier) : Prop where
  phase : start.phase = .collecting
  registered : start.registered = []
  asked : start.asked = []
  remaining : start.remaining = start.order
  nonempty : start.order ≠ []
  distinct : start.order.Nodup
  known : ∀ query path, start.tree.resolve query = .ok path → path ∈ start.order

theorem Barrier.Opened.ready {tree : ModuleTree} {aligner : Aligner} {policy : BarrierPolicy}
    {barrier : Barrier} (h : Opened tree aligner policy barrier) (built : tree.Built) :
    barrier.Ready := by
  have hdistinct := ModuleTree.nodup_paths built.wellKeyed
  have horder : barrier.order = tree.paths := by rw [h.eq]
  refine ⟨by rw [h.eq], by rw [h.eq], by rw [h.eq], ?_, ?_, ?_, ?_⟩
  · rw [h.eq]
    exact eraseDups_of_nodup hdistinct
  · obtain ⟨rest, hpaths⟩ := tree.paths_eq_cons
    rw [horder, hpaths]
    exact List.cons_ne_nil _ _
  · rw [horder]
    exact hdistinct
  · intro query path hresolve
    rw [h.tree_eq] at hresolve
    rw [horder]
    exact ModuleTree.resolve_mem_paths built.wellKeyed hresolve

theorem SmallBuild.built : SmallBuild.tree.Built :=
  have added : ModuleTree.add ":core" (.new "core" "org.example")
      (.single (.new "app" "org.example")) = .ok SmallBuild.tree := rfl
  .add (.root _ _) added

/-! ### What the last registration collects -/

namespace Barrier

variable {barrier : Barrier}

theorem registration?_eq_none {path : String} :
    barrier.registration? path = none ↔ path ∉ barrier.registered.map Prod.fst := by
  rw [registration?, Option.map_eq_none_iff, List.find?_eq_none, List.mem_map]
  constructor
  · intro hnone hfound
    obtain ⟨entry, hentry, hkey⟩ := hfound
    exact hnone entry hentry (by simpa using hkey)
  · intro hnot entry hentry hkey
    exact hnot ⟨entry, hentry, by simpa using hkey⟩

theorem mem_of_registration? {path : String} {registration : Registration}
    (h : barrier.registration? path = some registration) :
    (path, registration) ∈ barrier.registered := by
  obtain ⟨entry, hfind, rfl⟩ := Option.map_eq_some_iff.1 h
  have hkey : entry.1 = path := by simpa using List.find?_some hfind
  rw [← hkey]
  exact List.mem_of_find?_eq_some hfind

/-- Where no module has registered twice, every stored registration is found. -/
theorem registration?_of_mem (hdistinct : (barrier.registered.map Prod.fst).Nodup)
    {path : String} {registration : Registration}
    (h : (path, registration) ∈ barrier.registered) :
    barrier.registration? path = some registration := by
  rw [registration?, Keyed.findEntry_of_mem hdistinct h]
  rfl

/-- Only stored registrations are collected. -/
theorem mem_registered_of_mem_inOrder {entry : Registered} (h : entry ∈ barrier.inOrder) :
    entry ∈ barrier.registered := by
  rw [inOrder, List.mem_filterMap] at h
  obtain ⟨path, -, hpath⟩ := h
  obtain ⟨registration, hfound, rfl⟩ := Option.map_eq_some_iff.1 hpath
  exact mem_of_registration? hfound

/-- When every module has registered, the collected registrations are in path order. -/
theorem map_fst_inOrder (hdistinct : barrier.order.Nodup)
    (hall : ∀ path ∈ barrier.order, path ∈ barrier.registered.map Prod.fst) :
    barrier.inOrder.map Prod.fst = barrier.order := by
  rw [inOrder, eraseDups_of_nodup hdistinct, List.map_filterMap]
  have hself : ∀ path ∈ barrier.order, Option.map Prod.fst
      ((barrier.registration? path).map fun registration => (path, registration)) = some path := by
    intro path hpath
    cases hregistration : barrier.registration? path with
    | none => exact absurd (hall path hpath) (registration?_eq_none.1 hregistration)
    | some registration => rfl
  rw [List.filterMap_congr hself]
  exact List.filterMap_some

/-- The collected registrations are the same in whatever order they came in. -/
theorem inOrder_congr {registered : List Registered}
    (hdistinct : (barrier.registered.map Prod.fst).Nodup)
    (h : registered.Perm barrier.registered) :
    ({ barrier with registered } : Barrier).inOrder = barrier.inOrder := by
  have hsame : ∀ path, ({ barrier with registered } : Barrier).registration? path
      = barrier.registration? path := by
    intro path
    apply Option.ext
    intro registration
    constructor
    · intro hfound
      exact registration?_of_mem hdistinct (h.mem_iff.1 (mem_of_registration? hfound))
    · intro hfound
      exact registration?_of_mem ((h.map Prod.fst).nodup_iff.2 hdistinct)
        (h.mem_iff.2 (mem_of_registration? hfound))
  rw [inOrder, inOrder]
  simp only [hsame]

end Barrier

end BuildAlignment
