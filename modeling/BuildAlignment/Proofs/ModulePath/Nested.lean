import BuildAlignment.Proofs.ModulePath

/-!
# Nested paths

Modules are listed by their paths in any order. They make a tree if every path has its ancestors in
the list, and then they can be added one after another in the order of their depth.

* `ModulePath.Sound`, `ModulePath.Above` and `ModulePath.Nested` say as facts on texts which lists
  of paths make a tree.
* `ModulePath.sound_iff` and `ModulePath.above_iff` say the same with keys: a sound path has fit
  keys, and the paths above it are those of its first keys.
* `ModulePath.Grows` says that each path is new and right below a known one when its turn comes.
* `ModulePath.Nested.grows`: nested paths grow from the root, if no path comes before a path with
  fewer colons.
-/

namespace BuildAlignment.ModulePath

/-! ### Paths as texts -/

/-- A path below the root is a colon and parts with colons between them, none of which is empty. -/
def Sound (path : String) : Prop :=
  ∃ rest parts, path = ":" ++ rest ∧ Text.Cut ':' rest parts ∧ ∀ part ∈ parts, part ≠ ""

/-- A path goes on with a colon where the path of an ancestor other than the root ends. -/
def Above (ancestor path : String) : Prop :=
  ancestor ≠ "" ∧ ∃ rest, path = ancestor ++ ":" ++ rest

/-- The paths of the modules below a root, in any order. -/
structure Nested (paths : List String) : Prop where
  sound : ∀ path ∈ paths, Sound path
  once : paths.Nodup
  closed : ∀ path ∈ paths, ∀ ancestor, Above ancestor path → ancestor ∈ paths

theorem Nested.of_perm {paths others : List String} (h : Nested paths) (hperm : others.Perm paths) :
    Nested others where
  sound path hpath := h.sound path (hperm.mem_iff.1 hpath)
  once := hperm.nodup_iff.2 h.once
  closed path hpath ancestor habove :=
    hperm.mem_iff.2 (h.closed path (hperm.mem_iff.1 hpath) ancestor habove)

theorem toList_colon : (":" : String).toList = [':'] := rfl

theorem Above.count_lt {ancestor path : String} (h : Above ancestor path) :
    Text.count ':' ancestor < Text.count ':' path := by
  obtain ⟨-, rest, rfl⟩ := h
  rw [Text.count, Text.count, String.toList_append, String.toList_append, toList_colon,
    List.count_append, List.count_append, List.count_singleton_self]
  omega

/-- A path and its ancestors begin with the same colon. -/
theorem Above.exists_front {ancestor text : String} (h : Above ancestor (":" ++ text)) :
    ∃ front rest, ancestor = ":" ++ front ∧ text = front ++ ":" ++ rest := by
  obtain ⟨hne, rest, hpath⟩ := h
  have hlist := congrArg String.toList hpath
  simp only [String.toList_append, toList_colon, List.singleton_append] at hlist
  cases hancestor : ancestor.toList with
  | nil => exact absurd (String.toList_inj.1 hancestor) hne
  | cons head tail =>
    rw [hancestor, List.cons_append, List.cons_append] at hlist
    obtain ⟨rfl, htext⟩ := List.cons.inj hlist
    refine ⟨String.ofList tail, rest, String.toList_inj.1 ?_, String.toList_inj.1 ?_⟩
    · rw [hancestor, String.toList_append, toList_colon, String.toList_ofList, List.singleton_append]
    · rw [htext, String.toList_append, String.toList_append, String.toList_ofList]
      simp [toList_colon]

/-! ### Paths of keys -/

/-- The path of some keys is a colon and the keys with colons between them. -/
theorem ofKeys_eq {keys : List String} (h : ∀ key ∈ keys, IsKey key) :
    ofKeys keys = ":" ++ String.intercalate ":" keys := by
  apply String.toList_inj.1
  rw [toList_ofKeys fun key hkey => (h key hkey).1, String.toList_append, String.toList_intercalate]
  rfl

theorem cut_intercalate {keys : List String} (hne : keys ≠ []) (h : ∀ key ∈ keys, IsKey key) :
    Text.Cut ':' (String.intercalate ":" keys) keys :=
  ⟨hne, fun key hkey => (h key hkey).2, rfl⟩

theorem ofKeys_ne_root {keys : List String} (hne : keys ≠ []) (h : ∀ key ∈ keys, IsKey key) :
    ofKeys keys ≠ root := by
  intro heq
  rw [← ofKeys_nil] at heq
  exact hne (ofKeys_inj h (by simp) heq)

/-- A sound path is that of fit keys. -/
theorem sound_iff {path : String} :
    Sound path ↔ ∃ keys, keys ≠ [] ∧ (∀ key ∈ keys, IsKey key) ∧ ofKeys keys = path := by
  constructor
  · rintro ⟨rest, parts, rfl, hcut, hsay⟩
    have hfit : ∀ part ∈ parts, IsKey part := fun part hpart =>
      ⟨hsay part hpart, hcut.free part hpart⟩
    refine ⟨parts, hcut.nonempty, hfit, ?_⟩
    rw [ofKeys_eq hfit, ← hcut.joined]
  · rintro ⟨keys, hne, hfit, rfl⟩
    exact ⟨_, keys, ofKeys_eq hfit, cut_intercalate hne hfit, fun key hkey => (hfit key hkey).1⟩

/-- The ancestors of a path have its first keys. -/
theorem above_iff {ancestor : String} {keys : List String} (h : ∀ key ∈ keys, IsKey key) :
    Above ancestor (ofKeys keys) ↔
      ∃ before after, before ≠ [] ∧ after ≠ [] ∧ keys = before ++ after ∧
        ofKeys before = ancestor := by
  constructor
  · intro habove
    rw [ofKeys_eq h] at habove
    -- What the ancestor is behind its first colon is cut into the first keys.
    obtain ⟨front, rest, rfl, hjoined⟩ := habove.exists_front
    have hcut : Text.Cut ':' (front ++ ":" ++ rest)
        (Text.fields ':' front ++ Text.fields ':' rest) :=
      (Text.cut_fields ':' front).append (Text.cut_fields ':' rest)
    have hkeys : keys = Text.fields ':' front ++ Text.fields ':' rest := by
      have hsome : keys ≠ [] := by
        rintro rfl
        have hlength := congrArg (fun text => text.toList.length) hjoined
        simp [String.intercalate_nil] at hlength
      rw [← hjoined] at hcut
      rw [← Text.cut_iff.1 hcut, Text.cut_iff.1 (cut_intercalate hsome h)]
    refine ⟨_, _, (Text.cut_fields ':' front).nonempty, (Text.cut_fields ':' rest).nonempty, hkeys,
      ?_⟩
    rw [ofKeys_eq fun key hkey => h key (hkeys ▸ List.mem_append_left _ hkey)]
    exact congrArg (":" ++ ·) (Text.cut_fields ':' front).joined
  · rintro ⟨before, after, hbefore, hafter, rfl, rfl⟩
    have hfit : ∀ key ∈ before, IsKey key := fun key hkey => h key (List.mem_append_left _ hkey)
    refine ⟨?_, String.intercalate ":" after, ?_⟩
    · intro hempty
      have hlist := congrArg String.toList hempty
      rw [toList_ofKeys fun key hkey => (hfit key hkey).1] at hlist
      cases hlist
    · rw [ofKeys_eq h, ofKeys_eq hfit, String.intercalate_append_of_ne_nil hbefore hafter]
      simp only [String.append_assoc]

/-! ### Growing lists -/

/-- A path is that of another one with one key more. -/
def Below (parent path : String) : Prop :=
  ∃ keys key, (∀ step ∈ keys ++ [key], IsKey step) ∧ ofKeys keys = parent ∧
    ofKeys (keys ++ [key]) = path

/-- Paths that come one after another, each of them new and right below one that is known. -/
inductive Grows : List String → List String → Prop
  | done (known : List String) : Grows known []
  | next {known rest : List String} {path parent : String} (new : path ∉ known)
      (parentKnown : parent ∈ known) (below : Below parent path)
      (further : Grows (path :: known) rest) : Grows known (path :: rest)

/-- It only counts what is known. -/
theorem Grows.congr {known others paths : List String} (h : Grows known paths)
    (hsame : ∀ path, path ∈ known ↔ path ∈ others) : Grows others paths := by
  induction h generalizing others with
  | done known => exact .done others
  | next new parentKnown below _ ih =>
    refine .next (fun hold => new ((hsame _).2 hold)) ((hsame _).1 parentKnown) below (ih ?_)
    intro path
    rw [List.mem_cons, List.mem_cons, hsame]

/-- A sound path is right below the root or below an ancestor. -/
theorem exists_below_of_sound {path : String} (h : Sound path) :
    ∃ parent, Below parent path ∧ (parent = root ∨ Above parent path) := by
  obtain ⟨keys, hne, hfit, rfl⟩ := sound_iff.1 h
  obtain ⟨parents, last, rfl⟩ : ∃ parents last, keys = parents ++ [last] :=
    ⟨_, _, (List.dropLast_concat_getLast hne).symm⟩
  refine ⟨ofKeys parents, ⟨parents, last, hfit, rfl, rfl⟩, ?_⟩
  by_cases hparents : parents = []
  · left
    rw [hparents, ofKeys_nil]
  · right
    exact (above_iff hfit).2 ⟨parents, [last], hparents, by simp, rfl, rfl⟩

/-- Nested paths grow from the root if they come in the order of their depth. -/
theorem Nested.grows {done paths : List String} (h : Nested (done ++ paths))
    (hsorted : paths.Pairwise fun first second => Text.count ':' first ≤ Text.count ':' second) :
    Grows (root :: done) paths := by
  induction paths generalizing done with
  | nil => exact .done _
  | cons path rest ih =>
    obtain ⟨hfirst, hrest⟩ := List.pairwise_cons.1 hsorted
    have hlisted : path ∈ done ++ path :: rest := List.mem_append_right _ List.mem_cons_self
    obtain ⟨parent, hbelow, habove⟩ := exists_below_of_sound (h.sound path hlisted)
    refine .next ?_ ?_ hbelow ?_
    · rw [List.mem_cons, not_or]
      constructor
      · rintro rfl
        obtain ⟨keys, hne, hfit, hroot⟩ := sound_iff.1 (h.sound _ hlisted)
        exact ofKeys_ne_root hne hfit hroot
      · intro hdone
        exact (List.nodup_append.1 h.once).2.2 path hdone path List.mem_cons_self rfl
    · rcases habove with rfl | habove
      · exact List.mem_cons_self
      · -- The parent has fewer colons than all that is still to come, so it has come before.
        have hless := habove.count_lt
        rcases List.mem_append.1 (h.closed path hlisted parent habove) with hdone | hcoming
        · exact List.mem_cons_of_mem _ hdone
        · rcases List.mem_cons.1 hcoming with rfl | hlater
          · exact absurd hless (Nat.lt_irrefl _)
          · exact absurd (hfirst parent hlater) (Nat.not_le.2 hless)
    · have hmoved : (path :: done ++ rest).Perm (done ++ path :: rest) := List.perm_middle.symm
      refine (ih (h.of_perm hmoved) hrest).congr fun known => ?_
      simp only [List.mem_cons, or_left_comm]

end BuildAlignment.ModulePath
