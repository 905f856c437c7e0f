import BuildAlignment.ModulePath
import BuildAlignment.Proofs.Text.Fields

/-!
# Paths and their keys

A path can be read back into the keys it was made of, as long as the keys are fit for a path.

* `ModulePath.IsKey` holds of the texts that a path can keep apart: not empty and without a colon.
* `ModulePath.isSome_segments?_iff`: a text is read as a path if it begins with a colon.
* `ModulePath.segments?_ofKeys`: such keys are read back from their path.
* `ModulePath.ofKeys_of_segments?`: a path without empty segments is the path of its segments.
* `ModulePath.colon_not_mem_of_segments?`: no key that is read off a path holds a colon.
* `ModulePath.ofKeys_inj`: two lists of such keys with one path are the same list.
-/

namespace BuildAlignment.ModulePath

def IsKey (key : String) : Prop :=
  key ≠ "" ∧ ':' ∉ key.toList

/-! ### The characters of a path -/

theorem toList_child {parent : String} (hparent : parent ≠ root) (key : String) :
    (child parent key).toList = parent.toList ++ ':' :: key.toList := by
  rw [child, if_neg hparent, String.toList_append, String.toList_append]
  simp

theorem child_root (key : String) : child root key = ":" ++ key := if_pos rfl

/-- A path of two characters or more is not the root, and no path below it is. -/
theorem ne_root_of_two_le {path : String} (h : 2 ≤ path.toList.length) : path ≠ root := by
  intro heq
  rw [heq] at h
  exact absurd h (by decide)

/-- Below a path other than the root every key adds a colon and itself. -/
theorem toList_foldl_child (keys : List String) (start : String)
    (hstart : 2 ≤ start.toList.length) :
    (keys.foldl child start).toList
      = start.toList ++ keys.flatMap fun key => ':' :: key.toList := by
  induction keys generalizing start with
  | nil => simp
  | cons key rest ih =>
    have hchild := toList_child (ne_root_of_two_le hstart) key
    have hlong : 2 ≤ (child start key).toList.length := by
      rw [hchild, List.length_append]
      omega
    rw [List.foldl_cons, ih _ hlong, hchild, List.flatMap_cons, List.append_assoc]

theorem toList_ofKeys {keys : List String} (h : ∀ key ∈ keys, key ≠ "") :
    (ofKeys keys).toList = ':' :: [':'].intercalate (keys.map String.toList) := by
  cases keys with
  | nil => rfl
  | cons key rest =>
    have hkey : key.toList ≠ [] := fun hnil =>
      h key List.mem_cons_self (String.toList_inj.1 (by simpa using hnil))
    have hlist : (child root key).toList = ':' :: key.toList := by
      rw [child_root, String.toList_append]
      rfl
    have hlong : 2 ≤ (child root key).toList.length := by
      rw [hlist, List.length_cons]
      have := List.length_pos_iff.2 hkey
      omega
    rw [ofKeys, List.foldl_cons, toList_foldl_child rest _ hlong, hlist, List.map_cons,
      List.cons_append]
    congr 1
    clear h hkey hlist hlong
    induction rest generalizing key with
    | nil => simp
    | cons next rest ih =>
      rw [List.flatMap_cons, List.cons_append, ih next, List.map_cons,
        List.intercalate_cons_cons]
      simp

/-! ### Reading back -/

theorem isSome_segments?_iff {path : String} :
    (segments? path).isSome = true ↔ path.toList.head? = some ':' := by
  rw [segments?]
  split
  · rename_i rest hpath
    simp [hpath]
  · rename_i hpath
    constructor
    · intro h
      cases h
    · intro hhead
      obtain ⟨rest, hrest⟩ := List.head?_eq_some_iff.1 hhead
      exact absurd hrest (hpath rest)

theorem segments?_root : segments? root = some [] := by decide

theorem segments?_ofKeys {keys : List String} (h : ∀ key ∈ keys, IsKey key) :
    segments? (ofKeys keys) = some keys := by
  have hlist := toList_ofKeys fun key hkey => (h key hkey).1
  cases keys with
  | nil => exact segments?_root
  | cons key rest =>
    have hkey : key.toList ≠ [] := fun hnil =>
      (h key List.mem_cons_self).1 (String.toList_inj.1 (by simpa using hnil))
    have hfields : [':'].intercalate ((key :: rest).map String.toList) ≠ [] := by
      cases rest with
      | nil => simpa using hkey
      | cons next rest => simp [List.intercalate_cons_cons]
    have hread : Text.fields ':'
        (String.ofList ([':'].intercalate ((key :: rest).map String.toList))) = key :: rest := by
      refine Text.fields_eq_of_toList (fun part hpart => (h part hpart).2) (by simp) ?_
      exact String.toList_ofList
    rw [segments?, hlist]
    simp only [List.isEmpty_iff, if_neg hfields, hread]

/-- A path whose segments all say something is the path of its segments. -/
theorem ofKeys_of_segments? {path : String} {keys : List String}
    (hpath : segments? path = some keys) (h : ∀ key ∈ keys, key ≠ "") : ofKeys keys = path := by
  rw [segments?] at hpath
  split at hpath
  · rename_i rest hlist
    apply String.toList_inj.1
    rw [toList_ofKeys h, hlist]
    congr 1
    by_cases hrest : rest = []
    · subst hrest
      cases hpath
      rfl
    · rw [if_neg (by simpa using hrest)] at hpath
      cases hpath
      rw [Text.fields, List.map_map, String.toList_ofList]
      have hid : String.toList ∘ String.ofList = id := by
        funext cs
        simp
      rw [hid, List.map_id, List.intercalate_splitOn]
  · cases hpath

/-- What is read off a path holds no colon. -/
theorem colon_not_mem_of_segments? {path : String} {keys : List String}
    (hpath : segments? path = some keys) {key : String} (hkey : key ∈ keys) :
    ':' ∉ key.toList := by
  rw [segments?] at hpath
  split at hpath
  · rename_i rest hlist
    by_cases hrest : rest = []
    · subst hrest
      cases hpath
      cases hkey
    · rw [if_neg (by simpa using hrest)] at hpath
      cases hpath
      exact Text.not_mem_of_mem_fields hkey
  · cases hpath

theorem ofKeys_inj {first second : List String} (hfirst : ∀ key ∈ first, IsKey key)
    (hsecond : ∀ key ∈ second, IsKey key) (h : ofKeys first = ofKeys second) : first = second := by
  have hread := segments?_ofKeys hfirst
  rw [h, segments?_ofKeys hsecond] at hread
  exact (Option.some.inj hread).symm

end BuildAlignment.ModulePath
