import BuildAlignment.Proofs.ModuleTree.Arranged
import BuildAlignment.Proofs.Text.Distance

/-!
# What is suggested

A query that names nothing fails with suggestions: of all paths and names of the tree those that
come closest to it.

* `ModuleTree.Known` holds of the paths and the names of a tree. By
  `ModuleTree.WellKeyed.mem_knownNames` these are what suggestions are taken from.
* `ModuleTree.Near` holds of texts that are close enough to a query, and `ModuleTree.Nearer` is the
  order in which they are suggested.
* `pairwise_mergeSort_of_rank`: sorting by a rank keeps the order of what has one rank.
* `ModuleTree.Suggested` says what suggestions have to be, and by
  `ModuleTree.WellKeyed.suggested_of_notFound` they are.
-/

namespace BuildAlignment

/-! ### Sorting by a rank -/

section Sorting

variable {α : Type} {rank : α → Nat}

theorem rank_trans (a b c : α) (hab : decide (rank a ≤ rank b) = true)
    (hbc : decide (rank b ≤ rank c) = true) : decide (rank a ≤ rank c) = true :=
  decide_eq_true (Nat.le_trans (of_decide_eq_true hab) (of_decide_eq_true hbc))

theorem rank_total (a b : α) :
    (decide (rank a ≤ rank b) || decide (rank b ≤ rank a)) = true := by
  simpa using Nat.le_total (rank a) (rank b)

/-- What has one rank comes out as it went in. -/
theorem filter_mergeSort (items : List α) (place : Nat) :
    (items.mergeSort fun first second => rank first ≤ rank second).filter (rank · = place)
      = items.filter (rank · = place) := by
  have hsame : (items.filter (rank · = place)).Pairwise fun first second =>
      decide (rank first ≤ rank second) = true := by
    refine List.pairwise_of_forall_mem_list fun first hfirst second hsecond => ?_
    rw [of_decide_eq_true (List.mem_filter.1 hfirst).2,
      of_decide_eq_true (List.mem_filter.1 hsecond).2]
    exact decide_eq_true (Nat.le_refl _)
  have hsublist := (List.sublist_mergeSort rank_trans rank_total hsame List.filter_sublist).filter
    (rank · = place)
  rw [List.filter_filter] at hsublist
  simp only [Bool.and_self] at hsublist
  exact (hsublist.eq_of_length ((List.mergeSort_perm items _).filter _).length_eq.symm).symm

/-- Sorting by a rank keeps the order of what has one rank. -/
theorem pairwise_mergeSort_of_rank {before : α → α → Prop} {items : List α}
    (h : items.Pairwise before) :
    (items.mergeSort fun first second => rank first ≤ rank second).Pairwise fun first second =>
      rank first < rank second ∨ rank first = rank second ∧ before first second := by
  rw [List.pairwise_iff_forall_sublist]
  intro first second hpair
  have hle := List.pairwise_iff_forall_sublist.1
    (List.pairwise_mergeSort rank_trans rank_total items) hpair
  rcases Nat.lt_or_eq_of_le (of_decide_eq_true hle) with hlt | heq
  · exact .inl hlt
  · refine .inr ⟨heq, ?_⟩
    have hkept := hpair.filter (rank · = rank second)
    rw [filter_mergeSort, List.filter_cons_of_pos (by simpa using heq),
      List.filter_cons_of_pos (by simp), List.filter_nil] at hkept
    exact List.pairwise_iff_forall_sublist.1 h (hkept.trans List.filter_sublist)

/-- The first items of a list in an order: those left out come behind them, and there are none
unless so many were taken. -/
theorem of_mem_of_not_mem_take {before : α → α → Prop} {items : List α} {count : Nat}
    (h : items.Pairwise before) {item : α} (hitem : item ∈ items)
    (hleft : item ∉ items.take count) :
    (items.take count).length = count ∧ ∀ taken ∈ items.take count, before taken item := by
  have hdrop : item ∈ items.drop count := by
    rw [← List.take_append_drop count items, List.mem_append] at hitem
    exact hitem.resolve_left hleft
  have hlength := List.length_pos_of_mem hdrop
  rw [List.length_drop] at hlength
  refine ⟨?_, fun taken htaken => ?_⟩
  · rw [List.length_take]
    omega
  · rw [← List.take_append_drop count items, List.pairwise_append] at h
    exact h.2.2 taken htaken item hdrop

end Sorting

namespace ModuleTree

/-! ### Paths and names -/

/-- A path or a name of the tree. -/
def Known (tree : ModuleTree) (text : String) : Prop :=
  ∃ keys found, tree.Leads keys found ∧ (ModulePath.ofKeys keys = text ∨ found.info.name = text)

/-- The names at the listed paths are those of all modules. -/
theorem WellKeyed.mem_namesAtPaths {tree : ModuleTree} (h : tree.WellKeyed) {text : String} :
    text ∈ tree.namesAtPaths ↔ ∃ keys found, tree.Leads keys found ∧ found.info.name = text := by
  have hlocated : ∀ {keys found}, tree.Leads keys found →
      tree.locatePath? (ModulePath.ofKeys keys) = some found := by
    intro keys found hleads
    have hfound := h.leads_iff.1 hleads
    rw [locatePath?, ModulePath.segments?_ofKeys (h.of_locate? hfound)]
    exact hfound
  rw [namesAtPaths, List.mem_filterMap]
  constructor
  · rintro ⟨path, hpath, hname⟩
    obtain ⟨keys, found, hleads, rfl⟩ := mem_paths_iff.1 hpath
    rw [hlocated hleads] at hname
    exact ⟨keys, found, hleads, Option.some.inj hname⟩
  · rintro ⟨keys, found, hleads, rfl⟩
    refine ⟨ModulePath.ofKeys keys, mem_paths_iff.2 ⟨keys, found, hleads, rfl⟩, ?_⟩
    rw [hlocated hleads]
    rfl

/-- Suggestions are taken from all paths and names. -/
theorem WellKeyed.mem_knownNames {tree : ModuleTree} (h : tree.WellKeyed) {text : String} :
    text ∈ tree.knownNames ↔ tree.Known text := by
  rw [knownNames, Keyed.mem_keys_ofEntries, List.map_map]
  have hfst : (Prod.fst ∘ fun name : String => (name, ())) = id := rfl
  rw [hfst, List.map_id, List.mem_append, mem_paths_iff, h.mem_namesAtPaths]
  constructor
  · rintro (⟨keys, found, hleads, hpath⟩ | ⟨keys, found, hleads, hname⟩)
    · exact ⟨keys, found, hleads, .inl hpath⟩
    · exact ⟨keys, found, hleads, .inr hname⟩
  · rintro ⟨keys, found, hleads, hpath | hname⟩
    · exact .inl ⟨keys, found, hleads, hpath⟩
    · exact .inr ⟨keys, found, hleads, hname⟩

theorem pairwise_knownNames (tree : ModuleTree) : tree.knownNames.Pairwise (· < ·) :=
  List.pairwise_map.2 (Keyed.ordered_ofEntries _)

/-! ### What comes close -/

/-- A text is close enough to a query when it takes at most half as many edits as the query has
bytes, where a single edit is always allowed. -/
def Near (query text : String) : Prop :=
  ∃ edits, Text.EditDistance query text edits ∧ edits ≤ max 1 (query.utf8ByteSize / 2)

/-- A text that takes fewer edits comes first, and of those that take equally many the first by code
point, which is the order of the bytes as well. -/
def Nearer (query first second : String) : Prop :=
  ∃ edits others, Text.EditDistance query first edits ∧ Text.EditDistance query second others ∧
    (edits < others ∨ edits = others ∧ first < second)

theorem byteSize_eq (cs : List Char) : Text.byteSize cs = (String.ofList cs).utf8ByteSize := by
  induction cs with
  | nil => rfl
  | cons c rest ih =>
    rw [String.ofList_cons, String.utf8ByteSize_append, String.utf8ByteSize_singleton, ← ih]
    rfl

theorem near_iff {query text : String} :
    Near query text ↔ Text.distance query text ≤ suggestionLimit query := by
  rw [suggestionLimit, byteSize_eq, String.ofList_toList]
  constructor
  · rintro ⟨edits, hedits, hlimit⟩
    rw [Text.editDistance_iff.1 hedits]
    exact hlimit
  · exact fun hlimit => ⟨_, Text.editDistance_iff.2 rfl, hlimit⟩

theorem nearer_iff {query first second : String} :
    Nearer query first second ↔ Text.distance query first < Text.distance query second ∨
      Text.distance query first = Text.distance query second ∧ first < second := by
  constructor
  · rintro ⟨edits, others, hfirst, hsecond, horder⟩
    rw [Text.editDistance_iff.1 hfirst, Text.editDistance_iff.1 hsecond]
    exact horder
  · exact fun horder => ⟨_, _, Text.editDistance_iff.2 rfl, Text.editDistance_iff.2 rfl, horder⟩

theorem Nearer.ne {query first second : String} (h : Nearer query first second) :
    first ≠ second := by
  rintro rfl
  rcases nearer_iff.1 h with hlt | ⟨-, hlt⟩
  · exact Nat.lt_irrefl _ hlt
  · exact String.lt_irrefl _ hlt

/-! ### Suggestions -/

/-- What suggestions for a query have to be. -/
structure Suggested (tree : ModuleTree) (query : String) (suggestions : List String) : Prop where
  distinct : suggestions.Nodup
  few : suggestions.length ≤ 3
  /-- Paths and names of the tree that are close enough are suggested, and nothing else. -/
  known : ∀ text ∈ suggestions, tree.Known text ∧ Near query text
  sorted : suggestions.Pairwise (Nearer query)
  /-- What is close enough and is left out would come behind all that are suggested, and there is no
  place for it. -/
  best : ∀ text, tree.Known text → Near query text → text ∉ suggestions →
    suggestions.length = 3 ∧ ∀ suggested ∈ suggestions, Nearer query suggested text

/-- The known paths and names that are close enough to a query, with their distances. -/
def close (tree : ModuleTree) (query : String) : List (String × Nat) :=
  (tree.knownNames.map fun name => (name, Text.distance query name)).filter fun entry =>
    entry.2 ≤ suggestionLimit query

/-- What is close enough to a query, in the order in which it is suggested. -/
def ranked (tree : ModuleTree) (query : String) : List String :=
  ((tree.close query).mergeSort fun first second => first.2 ≤ second.2).map Prod.fst

theorem suggestions_eq (tree : ModuleTree) (query : String) :
    tree.suggestions query = (tree.ranked query).take suggestionCount := by
  rw [suggestions, ranked, List.map_take]
  rfl

theorem mem_close {tree : ModuleTree} {query : String} {entry : String × Nat} :
    entry ∈ tree.close query ↔ entry.1 ∈ tree.knownNames ∧
      entry.2 = Text.distance query entry.1 ∧ Near query entry.1 := by
  obtain ⟨text, edits⟩ := entry
  simp only [close, List.mem_filter, List.mem_map, decide_eq_true_eq, near_iff]
  constructor
  · rintro ⟨⟨name, hname, heq⟩, hlimit⟩
    cases heq
    exact ⟨hname, rfl, hlimit⟩
  · rintro ⟨hname, rfl, hlimit⟩
    exact ⟨⟨text, hname, rfl⟩, hlimit⟩

theorem WellKeyed.mem_ranked {tree : ModuleTree} (h : tree.WellKeyed) {query text : String} :
    text ∈ tree.ranked query ↔ tree.Known text ∧ Near query text := by
  rw [ranked, ((List.mergeSort_perm _ _).map _).mem_iff, List.mem_map, ← h.mem_knownNames]
  constructor
  · rintro ⟨entry, hentry, rfl⟩
    obtain ⟨hname, -, hnear⟩ := mem_close.1 hentry
    exact ⟨hname, hnear⟩
  · rintro ⟨hname, hnear⟩
    exact ⟨(text, Text.distance query text), mem_close.2 ⟨hname, rfl, hnear⟩, rfl⟩

theorem pairwise_ranked (tree : ModuleTree) (query : String) :
    (tree.ranked query).Pairwise (Nearer query) := by
  have hnames : (tree.knownNames.map fun name => (name, Text.distance query name)).Pairwise
      fun first second => first.1 < second.1 := List.pairwise_map.2 (pairwise_knownNames tree)
  have hclose : (tree.close query).Pairwise fun first second => first.1 < second.1 :=
    hnames.filter _
  have hscore : ∀ entry ∈ (tree.close query).mergeSort fun first second => first.2 ≤ second.2,
      entry.2 = Text.distance query entry.1 := fun entry hentry =>
    (mem_close.1 ((List.mergeSort_perm _ _).mem_iff.1 hentry)).2.1
  rw [ranked, List.pairwise_map]
  refine (pairwise_mergeSort_of_rank hclose).imp_of_mem ?_
  intro first second hfirst hsecond horder
  rw [nearer_iff, ← hscore first hfirst, ← hscore second hsecond]
  exact horder

theorem WellKeyed.suggested {tree : ModuleTree} (h : tree.WellKeyed) (query : String) :
    tree.Suggested query (tree.suggestions query) := by
  have hsorted := pairwise_ranked tree query
  rw [suggestions_eq]
  refine ⟨?_, List.length_take_le _ _, fun text htext => ?_, ?_, fun text hknown hnear hleft => ?_⟩
  · exact (hsorted.imp Nearer.ne).sublist (List.take_sublist _ _)
  · exact h.mem_ranked.1 (List.mem_of_mem_take htext)
  · exact hsorted.sublist (List.take_sublist _ _)
  · exact of_mem_of_not_mem_take hsorted (h.mem_ranked.2 ⟨hknown, hnear⟩) hleft

/-- A query that names nothing fails with the suggestions for it, without the blank characters at
its ends. -/
theorem of_resolve_eq_notFound {tree : ModuleTree} {query name : String} {suggestions : List String}
    (h : tree.resolve query = .error (.moduleNotFound name suggestions)) :
    name = Text.trim query ∧ suggestions = tree.suggestions (Text.trim query) := by
  simp only [resolve] at h
  split at h
  · split at h
    · cases h
    · cases h
      exact ⟨rfl, rfl⟩
  · split at h
    · cases h
      exact ⟨rfl, rfl⟩
    · cases h
    · cases h

/-- In a tree as every build makes one, a query that names nothing fails with the best suggestions
for it: at most three different paths and names of the tree, each within the limit, those that take
the fewest edits and of these the first by code point. -/
theorem WellKeyed.suggested_of_notFound {tree : ModuleTree} (h : tree.WellKeyed)
    {query name : String} {suggestions : List String}
    (hfails : tree.resolve query = .error (.moduleNotFound name suggestions)) :
    name = Text.trim query ∧ tree.Suggested (Text.trim query) suggestions := by
  obtain ⟨hname, rfl⟩ := of_resolve_eq_notFound hfails
  exact ⟨hname, h.suggested _⟩

def neighbours : ModuleTree :=
  node (.new "app" "g") [("subA", single (.new "subA" "g")), ("subB", single (.new "subB" "g")),
    ("subD", single (.new "subD" "g")), ("x", single (.new "subE" "g"))]

theorem wellKeyed_neighbours : neighbours.WellKeyed := by
  have hfit : ∀ key ∈ ["subA", "subB", "subD", "x"], ModulePath.IsKey key := by
    intro key hkey
    simp only [List.mem_cons, List.not_mem_nil, or_false] at hkey
    rcases hkey with rfl | rfl | rfl | rfl <;> exact ⟨by decide, by decide⟩
  refine .node (by decide) ?_ ?_
  · simpa using ⟨hfit "subA" (by simp), hfit "subB" (by simp), hfit "subD" (by simp),
      hfit "x" (by simp)⟩
  · simpa using ⟨.single _, .single _, .single _, .single _⟩

/-- A name for which there is no place among the suggestions, although it is as close as they
are. -/
theorem suggested_neighbours :
    neighbours.WellKeyed ∧
      neighbours.resolve " subC" = .error (.moduleNotFound "subC" ["subA", "subB", "subD"]) ∧
      neighbours.Suggested "subC" ["subA", "subB", "subD"] ∧
      neighbours.Known "subE" ∧ Near "subC" "subE" ∧ Nearer "subC" "subD" "subE" := by
  have hfails : neighbours.resolve " subC"
      = .error (.moduleNotFound "subC" ["subA", "subB", "subD"]) := by
    have hclose : neighbours.close "subC" =
        [(":subA", 2), (":subB", 2), (":subD", 2), ("subA", 1), ("subB", 1), ("subD", 1),
          ("subE", 1)] := by decide
    have hsuggestions : neighbours.suggestions "subC" = ["subA", "subB", "subD"] := by
      rw [suggestions_eq, ranked, hclose]
      simp [List.mergeSort, suggestionCount]
    rw [← hsuggestions]
    rfl
  obtain ⟨-, hsuggested⟩ := wellKeyed_neighbours.suggested_of_notFound hfails
  have hknown : neighbours.Known "subE" :=
    ⟨["x"], single (.new "subE" "g"), .down (by simp) (.here _), .inr rfl⟩
  have hnear : Near "subC" "subE" := near_iff.2 (by decide)
  obtain ⟨-, hbest⟩ := hsuggested.best "subE" hknown hnear (by decide)
  exact ⟨wellKeyed_neighbours, hfails, hsuggested, hknown, hnear, hbest "subD" (by simp)⟩

end ModuleTree

end BuildAlignment
