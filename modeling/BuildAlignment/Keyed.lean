/-!
# Entries in key order

A finite map from texts to values, kept as a list of entries in ascending order of their keys by
code point.

* `Keyed.find?` looks a key up.
* `Keyed.insert` sets the value of a key and keeps the order.
* `Keyed.ofEntries` builds a map from entries in any order, where the last one for a key counts.
-/

namespace BuildAlignment

abbrev Keyed (α : Type) := List (String × α)

namespace Keyed

variable {α : Type}

def find? (key : String) : Keyed α → Option α
  | [] => none
  | (k, value) :: rest => if k = key then some value else find? key rest

/-- Sets the value of a key: a value that was there is replaced, a new key goes to its place in
the order. -/
def insert (key : String) (value : α) : Keyed α → Keyed α
  | [] => [(key, value)]
  | (k, old) :: rest =>
    if key < k then (key, value) :: (k, old) :: rest
    else if k = key then (key, value) :: rest
    else (k, old) :: insert key value rest

def ofEntries (entries : List (String × α)) : Keyed α :=
  entries.foldl (fun map entry => insert entry.1 entry.2 map) []

/-- The keys stand in strictly ascending order, so no key occurs twice. -/
def Ordered (map : Keyed α) : Prop :=
  map.Pairwise fun first second => first.1 < second.1

theorem find?_insert (key other : String) (value : α) (map : Keyed α) :
    find? other (insert key value map) =
      if key = other then some value else find? other map := by
  induction map with
  | nil => simp [insert, find?]
  | cons entry rest ih =>
    obtain ⟨k, old⟩ := entry
    simp only [insert]
    split
    · simp [find?]
    · split
      · rename_i h
        subst h
        by_cases hk : k = other <;> simp [find?, hk]
      · rename_i hne
        simp only [find?, ih]
        by_cases hk : k = other
        · have : ¬ key = other := fun h => hne (hk.trans h.symm)
          simp [hk, this]
        · simp [hk]

end Keyed

end BuildAlignment
