import BuildAlignment.Alignment.Response
import Mathlib.Data.List.Find

/-!
# Stacked override layers

Override layers are searched from the newest to the oldest, and each of them from its first rule to
its last. So a stack of layers is one layer with the rules of the newest in front.

* `OverrideLayer.Gives` holds of the entries that give a dependency a version,
  `OverrideLayer.valued` are the entries that can give one to anything.
* `Response.overriddenVersion?_eq`: the layers of a response are searched as one flat layer.
* `Response.alignedVersion?_flat`: a stack of layers gives the versions of its flat layer, rules
  without a value change no version, and the first entry that gives a version decides.
-/

namespace BuildAlignment

variable {coordinate owner : Coordinate}

namespace OverrideLayer

/-- An entry gives a version to a dependency: its rule covers it, and its value is not empty. -/
def Gives (coordinate owner : Coordinate) (entry : Rule × String) : Prop :=
  entry.1.covers coordinate owner = true ∧ entry.2 ≠ ""

def valued (layer : OverrideLayer) : OverrideLayer :=
  layer.filter fun entry => entry.2 != ""

theorem version?_valued (layer : OverrideLayer) (coordinate owner : Coordinate) :
    layer.valued.version? coordinate owner = layer.version? coordinate owner := by
  rw [version?, version?, valued, List.find?_filter]
  refine congrArg (Option.map Prod.snd) (List.find?_congr fun entry _ => ?_)
  cases entry.2 != "" <;> simp

theorem valued_flatten (layers : List OverrideLayer) :
    valued layers.flatten = (layers.map valued).flatten :=
  List.filter_flatten

theorem gives_iff {entry : Rule × String} :
    (entry.2 != "" && entry.1.covers coordinate owner) = true ↔ Gives coordinate owner entry := by
  rw [Bool.and_eq_true, bne_iff_ne, Gives, and_comm]

/-- Where some entry gives a version, the first one decides. -/
theorem exists_first {layer : OverrideLayer} (h : ∃ entry ∈ layer, Gives coordinate owner entry) :
    ∃ before entry after, layer = before ++ entry :: after ∧ Gives coordinate owner entry ∧
      (∀ other ∈ before, ¬ Gives coordinate owner other) ∧
      layer.version? coordinate owner = some entry.2 := by
  obtain ⟨given, hmem, hgives⟩ := h
  have hsome : (layer.find? fun entry =>
      entry.2 != "" && entry.1.covers coordinate owner).isSome :=
    List.find?_isSome.2 ⟨given, hmem, gives_iff.2 hgives⟩
  obtain ⟨entry, hentry⟩ := Option.isSome_iff_exists.1 hsome
  obtain ⟨hfound, before, after, hsplit, hbefore⟩ := List.find?_eq_some_iff_append.1 hentry
  refine ⟨before, entry, after, hsplit, gives_iff.1 hfound, fun other hother hgiven => ?_, ?_⟩
  · have hnot := hbefore other hother
    rw [gives_iff.2 hgiven] at hnot
    cases hnot
  · rw [version?, hentry, Option.map_some]

end OverrideLayer

open OverrideLayer (Gives)

namespace Response

/-- The layers are searched as one layer, in which the rules of the newest come first. -/
theorem overriddenVersion?_eq (response : Response) (coordinate owner : Coordinate) :
    response.overriddenVersion? coordinate owner
      = OverrideLayer.version? coordinate owner response.layers.reverse.flatten := by
  rw [overriddenVersion?, OverrideLayer.version?, List.find?_flatten, List.map_findSome?]
  rfl

/-- A version depends on the layers only through what they give. -/
theorem alignedVersion?_withLayers (response : Response) {layers others : List OverrideLayer}
    (h : OverrideLayer.version? coordinate owner layers.reverse.flatten
      = OverrideLayer.version? coordinate owner others.reverse.flatten) :
    { response with layers }.alignedVersion? coordinate owner
      = { response with layers := others }.alignedVersion? coordinate owner := by
  rw [alignedVersion?, alignedVersion?, overriddenVersion?_eq, overriddenVersion?_eq, h]
  rfl

theorem foldl_pushLayer (response : Response) (layers : List OverrideLayer) :
    layers.foldl pushLayer response = { response with layers := response.layers ++ layers } := by
  induction layers generalizing response with
  | nil => rw [List.foldl_nil, List.append_nil]
  | cons layer rest ih =>
    rw [List.foldl_cons, ih, pushLayer]
    exact congrArg (fun all => { response with layers := all }) (List.append_cons ..).symm

/-- Layers that are pushed one after another give every dependency the version that their rules give
as a single layer, those of the last layer first. Rules without a value may stand anywhere in the
layers or be missing. Where some rule with a value covers a dependency, the first one decides,
whatever else the response holds. -/
theorem alignedVersion?_flat (response : Response) (coordinate owner : Coordinate) :
    (∀ layers : List OverrideLayer,
      (layers.foldl pushLayer response).alignedVersion? coordinate owner
        = (response.pushLayer layers.reverse.flatten).alignedVersion? coordinate owner) ∧
    (∀ others : List OverrideLayer,
      others.map OverrideLayer.valued = response.layers.map OverrideLayer.valued →
      { response with layers := others }.alignedVersion? coordinate owner
        = response.alignedVersion? coordinate owner) ∧
    ((∃ layer ∈ response.layers, ∃ entry ∈ layer, Gives coordinate owner entry) →
      ∃ before entry after, response.layers.reverse.flatten = before ++ entry :: after ∧
        Gives coordinate owner entry ∧ (∀ other ∈ before, ¬ Gives coordinate owner other) ∧
        ∀ other : Response, other.layers = response.layers →
          other.alignedVersion? coordinate owner = some entry.2) := by
  refine ⟨fun layers => ?_, fun others hothers => ?_, ?_⟩
  · rw [foldl_pushLayer]
    refine response.alignedVersion?_withLayers ?_
    rw [List.reverse_append, List.flatten_append, List.reverse_append, List.reverse_singleton,
      List.singleton_append, List.flatten_cons]
  · refine response.alignedVersion?_withLayers ?_
    rw [← OverrideLayer.version?_valued others.reverse.flatten,
      ← OverrideLayer.version?_valued response.layers.reverse.flatten,
      OverrideLayer.valued_flatten, OverrideLayer.valued_flatten, List.map_reverse,
      List.map_reverse, hothers]
  · rintro ⟨layer, hlayer, entry, hentry, hgives⟩
    have hflat : entry ∈ response.layers.reverse.flatten :=
      List.mem_flatten.2 ⟨layer, List.mem_reverse.2 hlayer, hentry⟩
    obtain ⟨before, first, after, hsplit, hfirst, hbefore, hversion⟩ :=
      OverrideLayer.exists_first ⟨entry, hflat, hgives⟩
    refine ⟨before, first, after, hsplit, hfirst, hbefore, fun other hother => ?_⟩
    rw [alignedVersion?, overriddenVersion?_eq, hother, hversion]

/-- A newest layer whose first rule has no value, above an older layer that the answer contradicts. -/
theorem alignedVersion?_flat_of_idle_rule :
    let lib : Coordinate := ⟨"org.lib", "base", "1.0"⟩
    let app : Coordinate := ⟨"org.acme", "app", "1.0"⟩
    let group : Rule := ⟨"org.lib@*", ⟨.literal "org.lib", .wildcard, .wildcard⟩, .any⟩
    let all : Rule := ⟨"*@*", ⟨.wildcard, .wildcard, .wildcard⟩, .any⟩
    let answered : Response := { versions := [(lib, "1.0-redhat-00001")], pinned := [lib] }
    let layers : List OverrideLayer := [[(group, "8.0"), (all, "7.0")], [(group, "")]]
    (∃ layer ∈ (layers.foldl pushLayer answered).layers, ∃ entry ∈ layer, Gives lib app entry) ∧
      (layers.foldl pushLayer answered).alignedVersion? lib app = some "8.0" ∧
      (answered.pushLayer [(group, ""), (group, "8.0"), (all, "7.0")]).alignedVersion? lib app
        = some "8.0" ∧
      { answered with layers := [[(group, "8.0"), (all, "7.0")], []] }.alignedVersion? lib app
        = some "8.0" ∧
      ({ layers } : Response).alignedVersion? lib app = some "8.0" := by
  intro lib app group all answered layers
  have hgives : ∃ layer ∈ (layers.foldl pushLayer answered).layers, ∃ entry ∈ layer,
      Gives lib app entry :=
    ⟨_, List.mem_cons_self, _, List.mem_cons_self, by decide, by decide⟩
  obtain ⟨hflat, -, -⟩ := alignedVersion?_flat answered lib app
  obtain ⟨-, hvalued, hfirst⟩ := alignedVersion?_flat (layers.foldl pushLayer answered) lib app
  have hversion : (layers.foldl pushLayer answered).alignedVersion? lib app = some "8.0" := by
    decide
  have hlater := hvalued [[(group, "8.0"), (all, "7.0")], []] rfl
  obtain ⟨-, entry, -, -, -, -, hdecides⟩ := hfirst hgives
  exact ⟨hgives, hversion, (hflat layers).symm.trans hversion, hlater.trans hversion,
    (hdecides { layers } rfl).trans ((hdecides _ rfl).symm.trans hversion)⟩

end Response

end BuildAlignment
