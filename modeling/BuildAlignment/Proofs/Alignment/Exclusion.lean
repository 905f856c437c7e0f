import BuildAlignment.Proofs.Alignment.Assembly
import Mathlib.Data.List.Forall2

/-!
# Exclusions together

Several exclusions take out of a request what the union of their rules covers, module by module. The
list of coordinates that is asked about is made from what the modules keep.

* `Rule.CoveredBy` holds of the dependencies that some rule of some lists covers.
* `Request.Spared` says what is left of a request behind these lists.
* `Exclusion.foldl_apply_union`: exclusions come to one exclusion with all of their rules, in whatever
  order they are applied and however often.
-/

namespace BuildAlignment

/-- Some rule of some list covers a dependency of an owner. -/
def Rule.CoveredBy (lists : List (List Rule)) (declared owner : Coordinate) : Prop :=
  ∃ rules ∈ lists, ∃ rule ∈ rules, rule.covers declared owner = true

instance (lists : List (List Rule)) (declared owner : Coordinate) :
    Decidable (Rule.CoveredBy lists declared owner) :=
  inferInstanceAs (Decidable (∃ rules ∈ lists, ∃ rule ∈ rules, rule.covers declared owner = true))

/-- What exclusions with some lists of rules leave of a request. Each module keeps the dependencies
that no rule covers for it, in their order and as often as they are declared. A coordinate is wanted
where some module keeps a dependency that resolves to it. -/
structure Request.Spared (lists : List (List Rule)) (incoming left : Request) : Prop where
  projects : left.projects = incoming.projects
  projectVersion : left.projectVersion = incoming.projectVersion
  modules : List.Forall₂ (fun entry kept => kept.path = entry.path ∧ kept.owner = entry.owner ∧
    kept.dependencies = entry.dependencies.filter fun dependency =>
      ¬ Rule.CoveredBy lists dependency.declared entry.owner) incoming.modules left.modules
  wanted : ∀ coordinate, coordinate ∈ left.dependencyCoordinates ↔
    ∃ entry ∈ incoming.modules, ∃ dependency ∈ entry.dependencies,
      ¬ Rule.CoveredBy lists dependency.declared entry.owner ∧
        dependency.resolved = some coordinate

theorem Request.without_congr (incoming : Request) {first second : List Exclusion}
    (h : ∀ declared owner, (∃ exclusion ∈ first, exclusion.covers declared owner = true) ↔
      ∃ exclusion ∈ second, exclusion.covers declared owner = true) :
    incoming.without first = incoming.without second := by
  have hany : ∀ declared owner, (first.any fun exclusion => exclusion.covers declared owner)
      = second.any fun exclusion => exclusion.covers declared owner := by
    intro declared owner
    rw [Bool.eq_iff_iff, List.any_eq_true, List.any_eq_true]
    exact h declared owner
  simp only [Request.without, hany]

/-- Dependencies are wanted as long as one module keeps them. -/
theorem Request.mem_dependencyCoordinates {request : Request} {coordinate : Coordinate} :
    coordinate ∈ request.dependencyCoordinates ↔
      ∃ entry ∈ request.modules, ∃ dependency ∈ entry.dependencies,
        dependency.resolved = some coordinate := by
  simp only [dependencyCoordinates, List.mem_eraseDups, List.mem_flatMap, ModuleRequest.resolved,
    List.mem_filterMap]

namespace Exclusion

variable {lists : List (List Rule)} {applied : List Exclusion}

theorem covers_iff {exclusion : Exclusion} {declared owner : Coordinate} :
    exclusion.covers declared owner = true ↔
      ∃ rule ∈ exclusion.rules, rule.covers declared owner = true :=
  List.any_eq_true

theorem coveredBy_iff_of_same (hsame : ∀ exclusion, exclusion ∈ applied ↔ exclusion.rules ∈ lists)
    (declared owner : Coordinate) :
    Rule.CoveredBy lists declared owner ↔
      ∃ exclusion ∈ applied, exclusion.covers declared owner = true := by
  constructor
  · rintro ⟨rules, hrules, hcovered⟩
    exact ⟨⟨rules⟩, (hsame ⟨rules⟩).2 hrules, covers_iff.2 hcovered⟩
  · rintro ⟨exclusion, hexclusion, hcovers⟩
    exact ⟨exclusion.rules, (hsame exclusion).1 hexclusion, covers_iff.1 hcovers⟩

theorem coveredBy_iff_flatten (declared owner : Coordinate) :
    Rule.CoveredBy lists declared owner ↔
      ∃ exclusion ∈ [(⟨lists.flatten⟩ : Exclusion)], exclusion.covers declared owner = true := by
  simp only [List.mem_singleton, exists_eq_left, covers_iff, List.mem_flatten, Rule.CoveredBy]
  constructor
  · rintro ⟨rules, hrules, rule, hrule, hcovers⟩
    exact ⟨rule, ⟨rules, hrules, hrule⟩, hcovers⟩
  · rintro ⟨rule, ⟨rules, hrules, hrule⟩, hcovers⟩
    exact ⟨rules, hrules, rule, hrule, hcovers⟩

theorem spared_without (incoming : Request) (h : ∀ declared owner,
    Rule.CoveredBy lists declared owner ↔
      ∃ exclusion ∈ applied, exclusion.covers declared owner = true) :
    incoming.Spared lists (incoming.without applied) := by
  have hkeeps : ∀ declared owner,
      (!applied.any fun exclusion => exclusion.covers declared owner)
        = decide (¬ Rule.CoveredBy lists declared owner) := by
    intro declared owner
    rw [Bool.eq_iff_iff, Bool.not_eq_true', Bool.eq_false_iff, ne_eq, List.any_eq_true,
      decide_eq_true_eq, h]
  refine ⟨rfl, rfl, ?_, fun coordinate => ?_⟩
  · rw [Request.without, List.forall₂_map_right_iff, List.forall₂_same]
    intro entry _
    simp only [hkeeps, and_self]
  · rw [Request.mem_dependencyCoordinates]
    simp only [Request.without, List.mem_map, exists_exists_and_eq_and, List.mem_filter, hkeeps,
      decide_eq_true_eq, and_assoc]

/-- Exclusions that are applied one after another come to one exclusion with all of their rules. The
order does not matter, nor how often each is applied. -/
theorem foldl_apply_union (incoming : Request)
    (hsame : ∀ exclusion, exclusion ∈ applied ↔ exclusion.rules ∈ lists) :
    applied.foldl (fun current exclusion => exclusion.apply current) incoming
        = (⟨lists.flatten⟩ : Exclusion).apply incoming ∧
      incoming.Spared lists
        (applied.foldl (fun current exclusion => exclusion.apply current) incoming) := by
  have hunion : (⟨lists.flatten⟩ : Exclusion).apply incoming = incoming.without [⟨lists.flatten⟩] :=
    foldl_apply [⟨lists.flatten⟩] incoming
  rw [foldl_apply, hunion]
  refine ⟨incoming.without_congr fun declared owner => ?_,
    spared_without incoming (coveredBy_iff_of_same hsame)⟩
  rw [← coveredBy_iff_of_same hsame, coveredBy_iff_flatten]

/-- Two exclusions, one of them applied twice. What the application does not want is still wanted by
another module. -/
theorem foldl_apply_union_of_repeated :
    let app : Coordinate := ⟨"org.acme", "app", "1.0"⟩
    let core : Coordinate := ⟨"org.acme", "core", "1.0"⟩
    let base : Dependency := .exact ⟨"org.lib", "base", "1.0"⟩
    let mocks : Dependency := .exact ⟨"org.test", "mocks", "2.0"⟩
    let logs : Dependency := .exact ⟨"org.log", "api", "3.0"⟩
    let forApp : Rule := ⟨"org.test@org.acme:app", ⟨.literal "org.test", .wildcard, .wildcard⟩,
      .owner (.literal "org.acme") (.literal "app")⟩
    let forAll : Rule := ⟨"org.log:api@*", ⟨.literal "org.log", .literal "api", .wildcard⟩, .any⟩
    let applied : List Exclusion := [⟨[forAll]⟩, ⟨[forApp]⟩, ⟨[forAll]⟩]
    let incoming : Request := ⟨[app, core], "1.0",
      [⟨":", app, [base, mocks, base, logs]⟩, ⟨":core", core, [logs, mocks]⟩]⟩
    let left : Request := ⟨[app, core], "1.0",
      [⟨":", app, [base, base]⟩, ⟨":core", core, [mocks]⟩]⟩
    (∀ exclusion, exclusion ∈ applied ↔ exclusion.rules ∈ [[forApp], [forAll]]) ∧
      applied.foldl (fun current exclusion => exclusion.apply current) incoming = left ∧
      incoming.Spared [[forApp], [forAll]] left ∧
      ⟨"org.test", "mocks", "2.0"⟩ ∈ left.dependencyCoordinates := by
  intro app core base mocks logs forApp forAll applied incoming left
  have hsame : ∀ exclusion, exclusion ∈ applied ↔ exclusion.rules ∈ [[forApp], [forAll]] := by
    rintro ⟨rules⟩
    simp only [applied, List.mem_cons, Exclusion.mk.injEq, List.not_mem_nil, or_false]
    constructor
    · rintro (hall | happ | hall)
      · exact .inr hall
      · exact .inl happ
      · exact .inr hall
    · rintro (happ | hall)
      · exact .inr (.inl happ)
      · exact .inl hall
  obtain ⟨hunion, hspared⟩ := foldl_apply_union incoming hsame
  have hleft : applied.foldl (fun current exclusion => exclusion.apply current) incoming = left :=
    hunion.trans (by decide)
  rw [hleft] at hspared
  refine ⟨hsame, hleft, hspared, (hspared.wanted _).2 ?_⟩
  exact ⟨_, List.mem_cons_of_mem _ List.mem_cons_self, mocks, by decide, by decide, rfl⟩

end Exclusion

end BuildAlignment
