import BuildAlignment.Keyed
import BuildAlignment.Proofs.Sequence
import Mathlib.Data.List.Sort

/-!
# Lookups in keyed entries

* `Keyed.mem_of_find?` and `Keyed.find?_of_mem` relate a lookup to the entries.
* `Keyed.find?_map_at`: a change under one key is seen under that key. By `Keyed.fst_map_at` it keeps
  the keys, and by `Keyed.forall_map_at` what holds of all values, if the changed one still has it.
* `Keyed.insert_perm`: a new key is added to the entries, and nothing else happens to them.
* `Keyed.insert_insert`: of two values set for one key only the second stays.
* `Keyed.find?_ofEntries`: the last entry for a key counts. `Keyed.find?_ofEntries_of_agree` and
  `Keyed.find?_ofEntries_of_mem` are about entries that agree on a key, and about distinct keys,
  `Keyed.find?_ofEntries_eq_none` is about other keys, `Keyed.find?_ofEntries_filterMap` about
  values that come from the keys.
* `Keyed.foldl_insert_of_ordered`: entries that come in key order stay as they are.
* `Keyed.ext_of_ordered`: ordered entries are known by their lookups. By `Keyed.ordered_ofEntries`
  a map from entries is ordered, and by `Keyed.ofEntries_settled` it is not changed by giving what
  it holds for every key once more.
-/

namespace BuildAlignment.Keyed

variable {α : Type}

/-! ### Lookup and entries -/

theorem mem_of_find? {key : String} {value : α} {map : Keyed α} (h : find? key map = some value) :
    (key, value) ∈ map := by
  induction map with
  | nil => cases h
  | cons entry rest ih =>
    rw [find?] at h
    split at h
    · rename_i hkey
      cases h
      subst hkey
      exact List.mem_cons_self
    · exact List.mem_cons_of_mem _ (ih h)

theorem find?_of_mem {key : String} {value : α} {map : Keyed α}
    (hdistinct : (map.map Prod.fst).Nodup) (h : (key, value) ∈ map) :
    find? key map = some value := by
  induction map with
  | nil => cases h
  | cons entry rest ih =>
    obtain ⟨hnot, hrest⟩ := List.nodup_cons.1 hdistinct
    rw [find?]
    rcases List.mem_cons.1 h with heq | hmem
    · cases heq
      exact if_pos rfl
    · have hne : ¬ entry.1 = key := fun heq => hnot (heq ▸ List.mem_map_of_mem hmem)
      rw [if_neg hne]
      exact ih hrest hmem

theorem findEntry_of_mem {entries : List (String × α)} (hdistinct : (entries.map Prod.fst).Nodup)
    {entry : String × α} (h : entry ∈ entries) :
    entries.find? (fun other => other.1 == entry.1) = some entry := by
  induction entries with
  | nil => cases h
  | cons head rest ih =>
    obtain ⟨hnot, hrest⟩ := List.nodup_cons.1 hdistinct
    rcases List.mem_cons.1 h with rfl | hmem
    · exact List.find?_cons_of_pos (beq_self_eq_true entry.1)
    · have hne : head.1 ≠ entry.1 := fun heq => hnot (heq ▸ List.mem_map_of_mem hmem)
      rw [List.find?_cons_of_neg (by simpa using hne)]
      exact ih hrest hmem

theorem find?_eq_none_iff {key : String} {map : Keyed α} :
    find? key map = none ↔ key ∉ map.map Prod.fst := by
  induction map with
  | nil => simp [find?]
  | cons entry rest ih =>
    rw [find?, List.map_cons, List.mem_cons, not_or]
    split
    · rename_i hkey
      simp [hkey]
    · rename_i hkey
      rw [ih]
      exact ⟨fun h => ⟨fun heq => hkey heq.symm, h⟩, fun h => h.2⟩

/-- Of two lists of entries the first is searched first. -/
theorem find?_append (key : String) (first second : Keyed α) :
    find? key (first ++ second) = (find? key first).or (find? key second) := by
  induction first with
  | nil => rfl
  | cons entry rest ih =>
    obtain ⟨known, value⟩ := entry
    rw [List.cons_append, find?, find?]
    split
    · rfl
    · exact ih

theorem fst_map_at (key : String) (change : α → α) (map : Keyed α) :
    (map.map fun entry => if entry.1 = key then (entry.1, change entry.2) else entry).map Prod.fst
      = map.map Prod.fst := by
  rw [List.map_map]
  apply List.map_congr_left
  intro entry _
  by_cases hkey : entry.1 = key <;> simp [hkey]

theorem forall_map_at (key : String) (change : α → α) {map : Keyed α} {property : α → Prop}
    (h : ∀ entry ∈ map, property entry.2)
    (hchange : ∀ value, (key, value) ∈ map → property value → property (change value)) :
    ∀ entry ∈ map.map fun entry => if entry.1 = key then (entry.1, change entry.2) else entry,
      property entry.2 := by
  intro entry hentry
  obtain ⟨⟨known, value⟩, hold, rfl⟩ := List.mem_map.1 hentry
  by_cases hkey : known = key
  · subst hkey
    rw [if_pos rfl]
    exact hchange value hold (h _ hold)
  · rw [if_neg hkey]
    exact h _ hold

theorem find?_map_at (key other : String) (change : α → α) (map : Keyed α) :
    find? other (map.map fun entry => if entry.1 = key then (entry.1, change entry.2) else entry)
      = if other = key then (find? other map).map change else find? other map := by
  induction map with
  | nil => simp [find?]
  | cons entry rest ih =>
    obtain ⟨known, value⟩ := entry
    by_cases hother : known = other
    · subst hother
      by_cases hkey : known = key <;> simp [find?, hkey]
    · rw [List.map_cons]
      by_cases hkey : known = key
      · rw [if_pos hkey, find?, if_neg hother, ih, find?, if_neg hother]
      · rw [if_neg hkey, find?, if_neg hother, ih, find?, if_neg hother]

/-! ### Insertion -/

theorem insert_perm {key : String} {map : Keyed α} (value : α) (h : find? key map = none) :
    (insert key value map).Perm ((key, value) :: map) := by
  induction map with
  | nil => exact List.Perm.refl _
  | cons entry rest ih =>
    rw [find?] at h
    split at h
    · cases h
    · rename_i hkey
      rw [insert, if_neg hkey]
      split
      · exact List.Perm.refl _
      · exact ((ih h).cons entry).trans (List.Perm.swap (key, value) entry rest)

theorem mem_insert {key : String} {value : α} {map : Keyed α} {entry : String × α}
    (h : entry ∈ insert key value map) : entry = (key, value) ∨ entry ∈ map := by
  induction map with
  | nil => exact Or.inl (List.mem_singleton.1 h)
  | cons known rest ih =>
    rw [insert] at h
    split at h
    · exact List.mem_cons.1 h
    · split at h
      · rcases List.mem_cons.1 h with heq | hrest
        · exact Or.inl heq
        · exact Or.inr (List.mem_cons_of_mem _ hrest)
      · rcases List.mem_cons.1 h with heq | hrest
        · exact Or.inr (heq ▸ List.mem_cons_self)
        · exact (ih hrest).imp id (List.mem_cons_of_mem _)

theorem forall_insert (key : String) {value : α} {map : Keyed α} {property : α → Prop}
    (hvalue : property value) (h : ∀ entry ∈ map, property entry.2) :
    ∀ entry ∈ insert key value map, property entry.2 := by
  intro entry hentry
  rcases mem_insert hentry with rfl | hold
  · exact hvalue
  · exact h entry hold

/-- Entries that were put into a map come from the map or are among them. -/
theorem mem_foldl_insert {entries : List (String × α)} {map : Keyed α} {entry : String × α}
    (h : entry ∈ entries.foldl (fun known given => insert given.1 given.2 known) map) :
    entry ∈ map ∨ entry ∈ entries := by
  induction entries generalizing map with
  | nil => exact .inl h
  | cons given rest ih =>
    rcases ih h with hmap | hrest
    · rcases mem_insert hmap with rfl | hmem
      · exact .inr List.mem_cons_self
      · exact .inl hmem
    · exact .inr (List.mem_cons_of_mem _ hrest)

theorem insert_insert (key : String) (first second : α) (map : Keyed α) :
    insert key second (insert key first map) = insert key second map := by
  have hirrefl : ¬ key < key := String.lt_irrefl key
  induction map with
  | nil => simp only [insert, if_neg hirrefl, if_true]
  | cons entry rest ih =>
    obtain ⟨known, old⟩ := entry
    by_cases hlt : key < known
    · simp only [insert, if_pos hlt, if_neg hirrefl, if_true]
    · by_cases heq : known = key
      · subst heq
        simp only [insert, if_neg hirrefl, if_true]
      · simp only [insert, if_neg hlt, if_neg heq, ih]

/-! ### Maps from entries -/

theorem find?_foldl_insert (key : String) (entries : List (String × α)) (map : Keyed α) :
    find? key (entries.foldl (fun known entry => insert entry.1 entry.2 known) map)
      = ((entries.reverse.find? fun entry => entry.1 == key).map Prod.snd).or (find? key map) := by
  refine seen_foldl (find? key) (fun entry _ known => ?_) map
  rw [find?_insert]
  simp

/-- A map from entries holds the last value given for a key. -/
theorem find?_ofEntries (key : String) (entries : List (String × α)) :
    find? key (ofEntries entries)
      = (entries.reverse.find? fun entry => entry.1 == key).map Prod.snd := by
  rw [ofEntries, find?_foldl_insert]
  simp [find?]

/-- What a map holds for a key depends on the entries for that key. -/
theorem find?_ofEntries_congr {key : String} {entries others : List (String × α)}
    (h : entries.filter (fun entry => entry.1 == key) = others.filter fun entry => entry.1 == key) :
    find? key (ofEntries entries) = find? key (ofEntries others) := by
  rw [find?_ofEntries, find?_ofEntries, ← List.head?_filter, ← List.head?_filter,
    List.filter_reverse, List.filter_reverse, h]

/-- Where all entries for a key agree, a map from entries holds what they say. -/
theorem find?_ofEntries_of_agree {key : String} {value : α} {entries : List (String × α)}
    (h : (key, value) ∈ entries) (hagree : ∀ entry ∈ entries, entry.1 = key → entry.2 = value) :
    find? key (ofEntries entries) = some value := by
  rw [find?_ofEntries]
  cases hfound : entries.reverse.find? fun entry => entry.1 == key with
  | none =>
    rw [List.find?_eq_none] at hfound
    exact absurd (beq_self_eq_true key) (hfound _ (List.mem_reverse.2 h))
  | some found =>
    have hkey : found.1 = key := by simpa using List.find?_some hfound
    have hmem := List.mem_reverse.1 (List.mem_of_find?_eq_some hfound)
    exact congrArg some (hagree found hmem hkey)

/-- Where every key is given once, a map from entries holds each of them. -/
theorem find?_ofEntries_of_mem {key : String} {value : α} {entries : List (String × α)}
    (hdistinct : (entries.map Prod.fst).Nodup) (h : (key, value) ∈ entries) :
    find? key (ofEntries entries) = some value := by
  refine find?_ofEntries_of_agree h ?_
  intro entry hentry hkey
  have hfirst := find?_of_mem hdistinct hentry
  rw [hkey, find?_of_mem hdistinct h] at hfirst
  exact (Option.some.inj hfirst).symm

/-- A map from entries holds nothing else. -/
theorem find?_ofEntries_eq_none {key : String} {entries : List (String × α)}
    (h : key ∉ entries.map Prod.fst) : find? key (ofEntries entries) = none := by
  rw [find?_ofEntries, Option.map_eq_none_iff, List.find?_eq_none]
  intro entry hentry hkey
  have heq : entry.1 = key := by simpa using hkey
  exact h (heq ▸ List.mem_map_of_mem (List.mem_reverse.1 hentry))

theorem exists_find?_ofEntries {key : String} {entries : List (String × α)}
    (h : key ∈ entries.map Prod.fst) :
    ∃ value, find? key (ofEntries entries) = some value ∧ (key, value) ∈ entries := by
  cases hfound : entries.reverse.find? fun entry => entry.1 == key with
  | none =>
    obtain ⟨entry, hentry, hkey⟩ := List.mem_map.1 h
    rw [List.find?_eq_none] at hfound
    exact absurd (by simpa using hkey) (hfound entry (List.mem_reverse.2 hentry))
  | some entry =>
    have hkey : entry.1 = key := by simpa using List.find?_some hfound
    refine ⟨entry.2, by rw [find?_ofEntries, hfound]; rfl, ?_⟩
    rw [← hkey]
    exact List.mem_reverse.1 (List.mem_of_find?_eq_some hfound)

theorem mem_keys_ofEntries {key : String} {entries : List (String × α)} :
    key ∈ (ofEntries entries).map Prod.fst ↔ key ∈ entries.map Prod.fst := by
  rw [← not_iff_not, ← find?_eq_none_iff]
  constructor
  · intro hnone hkey
    obtain ⟨value, hvalue, -⟩ := exists_find?_ofEntries hkey
    rw [hnone] at hvalue
    cases hvalue
  · exact find?_ofEntries_eq_none

/-- Where the values come from the keys, a map from entries holds that of every key given. -/
theorem find?_ofEntries_filterMap (key : String) (keys : List String)
    (value? : String → Option α) :
    find? key (ofEntries (keys.filterMap fun known =>
        (value? known).map fun value => (known, value)))
      = if key ∈ keys then value? key else none := by
  rw [find?_ofEntries]
  cases hfound : (keys.filterMap fun known =>
      (value? known).map fun value => (known, value)).reverse.find? fun entry => entry.1 == key with
  | some entry =>
    have hkey : entry.1 = key := by simpa using List.find?_some hfound
    have hmem := List.mem_reverse.1 (List.mem_of_find?_eq_some hfound)
    obtain ⟨known, hknown, hentry⟩ := List.mem_filterMap.1 hmem
    obtain ⟨value, hvalue, rfl⟩ := Option.map_eq_some_iff.1 hentry
    subst hkey
    rw [if_pos hknown, hvalue]
    rfl
  | none =>
    split
    · rename_i hmem
      cases hvalue : value? key with
      | none => rfl
      | some value =>
        have hentry : (key, value) ∈ keys.filterMap fun known =>
            (value? known).map fun value => (known, value) :=
          List.mem_filterMap.2 ⟨key, hmem, by rw [hvalue]; rfl⟩
        rw [List.find?_eq_none] at hfound
        exact absurd (beq_self_eq_true key) (hfound _ (List.mem_reverse.2 hentry))
    · rfl

/-! ### Entries in key order -/

/-- A key behind all others goes to the end. -/
theorem insert_of_forall_lt {key : String} {map : Keyed α} (h : ∀ entry ∈ map, entry.1 < key)
    (value : α) : insert key value map = map ++ [(key, value)] := by
  induction map with
  | nil => rfl
  | cons entry rest ih =>
    have hlt : entry.1 < key := h entry List.mem_cons_self
    have hne : ¬ entry.1 = key := fun heq => String.lt_irrefl key (heq ▸ hlt)
    rw [insert, if_neg (String.lt_asymm hlt), if_neg hne,
      ih fun other hother => h other (List.mem_cons_of_mem _ hother), List.cons_append]

/-- Entries that come in key order are put behind each other. -/
theorem foldl_insert_of_ordered {map entries : Keyed α} (h : Ordered (map ++ entries)) :
    entries.foldl (fun known entry => insert entry.1 entry.2 known) map = map ++ entries := by
  induction entries generalizing map with
  | nil => exact (List.append_nil map).symm
  | cons entry rest ih =>
    have hlast : ∀ known ∈ map, known.1 < entry.1 := fun known hknown =>
      (List.pairwise_append.1 h).2.2 known hknown entry List.mem_cons_self
    have hsplit : map ++ entry :: rest = (map ++ [entry]) ++ rest := by
      rw [List.append_assoc, List.singleton_append]
    rw [List.foldl_cons, insert_of_forall_lt hlast, hsplit]
    exact ih (hsplit ▸ h)

theorem ofEntries_of_ordered {map : Keyed α} (h : Ordered map) : ofEntries map = map :=
  foldl_insert_of_ordered h

theorem ordered_insert {key : String} {map : Keyed α} (value : α) (h : Ordered map) :
    Ordered (insert key value map) := by
  induction map with
  | nil => exact List.pairwise_singleton _ _
  | cons entry rest ih =>
    obtain ⟨hfirst, hrest⟩ := List.pairwise_cons.1 h
    rw [insert]
    split
    · rename_i hlt
      refine List.pairwise_cons.2 ⟨?_, h⟩
      intro other hother
      rcases List.mem_cons.1 hother with rfl | hmem
      · exact hlt
      · exact String.lt_trans hlt (hfirst other hmem)
    · rename_i hnot
      split
      · rename_i hsame
        refine List.pairwise_cons.2 ⟨?_, hrest⟩
        intro other hother
        exact hsame ▸ hfirst other hother
      · rename_i hne
        refine List.pairwise_cons.2 ⟨?_, ih hrest⟩
        intro other hother
        rcases mem_insert hother with rfl | hmem
        · exact Std.lt_of_le_of_ne (String.not_lt.1 hnot) hne
        · exact hfirst other hmem

theorem Ordered.map_at {map : Keyed α} (h : Ordered map) (key : String) (change : α → α) :
    Ordered (map.map fun entry => if entry.1 = key then (entry.1, change entry.2) else entry) := by
  rw [Ordered, ← List.pairwise_map] at h ⊢
  rw [fst_map_at]
  exact h

theorem Ordered.distinct {map : Keyed α} (h : Ordered map) : (map.map Prod.fst).Nodup := by
  refine List.pairwise_map.2 (h.imp ?_)
  intro first second hlt heq
  rw [heq] at hlt
  exact String.lt_irrefl _ hlt

theorem ordered_foldl_insert {map : Keyed α} (entries : List (String × α)) (h : Ordered map) :
    Ordered (entries.foldl (fun known entry => insert entry.1 entry.2 known) map) := by
  induction entries generalizing map with
  | nil => exact h
  | cons entry rest ih => exact ih (ordered_insert entry.2 h)

theorem ordered_ofEntries (entries : List (String × α)) : Ordered (ofEntries entries) :=
  ordered_foldl_insert entries List.Pairwise.nil

theorem Ordered.mem_iff {map : Keyed α} (h : Ordered map) {key : String} {value : α} :
    (key, value) ∈ map ↔ find? key map = some value :=
  ⟨find?_of_mem h.distinct, mem_of_find?⟩

/-- Ordered entries are known from what is among them. -/
theorem Ordered.eq_of_mem_iff {first second : Keyed α} (hfirst : Ordered first)
    (hsecond : Ordered second) (h : ∀ entry, entry ∈ first ↔ entry ∈ second) : first = second := by
  have : Std.Irrefl fun a b : String × α => a.1 < b.1 := ⟨fun a => String.lt_irrefl a.1⟩
  have : Std.Antisymm fun a b : String × α => a.1 < b.1 :=
    ⟨fun _ _ hab hba => absurd hba (String.lt_asymm hab)⟩
  exact List.Pairwise.eq_of_mem_iff hfirst hsecond h

/-- Ordered entries with the same lookups are the same. -/
theorem ext_of_ordered {first second : Keyed α} (hfirst : Ordered first) (hsecond : Ordered second)
    (h : ∀ key, find? key first = find? key second) : first = second := by
  refine hfirst.eq_of_mem_iff hsecond ?_
  rintro ⟨key, value⟩
  rw [hfirst.mem_iff, hsecond.mem_iff, h]

/-- A map stays the same when every entry is given with what the map holds for its key. -/
theorem ofEntries_settled (entries : List (String × α)) :
    ofEntries (entries.map fun entry =>
      (entry.1, ((ofEntries entries).find? entry.1).getD entry.2)) = ofEntries entries := by
  refine ext_of_ordered (ordered_ofEntries _) (ordered_ofEntries _) ?_
  intro key
  by_cases hkey : key ∈ entries.map Prod.fst
  · obtain ⟨given, hgiven, hsame⟩ := List.mem_map.1 hkey
    obtain ⟨value, hvalue, -⟩ := exists_find?_ofEntries hkey
    rw [hvalue]
    refine find?_ofEntries_of_agree (List.mem_map.2 ⟨given, hgiven, ?_⟩) ?_
    · rw [hsame, hvalue]
      rfl
    · intro entry hentry hsame
      obtain ⟨other, -, rfl⟩ := List.mem_map.1 hentry
      simp only at hsame ⊢
      rw [hsame, hvalue]
      rfl
  · rw [find?_ofEntries_eq_none hkey, find?_ofEntries_eq_none]
    rw [List.map_map]
    exact hkey

end BuildAlignment.Keyed
