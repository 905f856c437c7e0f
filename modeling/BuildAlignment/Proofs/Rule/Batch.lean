import BuildAlignment.Proofs.Rule.Grammar
import BuildAlignment.Proofs.Sequence

/-!
# Reading many rule keys

The keys of a table are read together, so that all that are malformed are reported at once.

* `Rule.malformed` are the keys among some keys that are no rules.
* `Rule.Reported` says which error reports malformed keys.
* `Rule.ReadEach`: rules that were read from entries, one from each.
* `Rule.parseAll_cases`: either every entry is read, or the error reports every key that is not.
-/

namespace BuildAlignment.Rule

def malformed (keys : List String) : List String :=
  keys.filter fun key => !(parse key).isOk

/-- How malformed keys are reported. A lone one is reported by its own error. Several are reported by
one error, whose key is all of them and which has a problem for each: the key, and then all that is
wrong with it. -/
inductive Reported : List String → AlignmentError → Prop
  | alone {key : String} {error : AlignmentError} (own : parse key = .error error) :
      Reported [key] error
  | together {keys : List String} {problems : List RuleProblem} (several : 2 ≤ keys.length)
      (each : List.Forall₂ (fun key problem =>
        ∃ found, parse key = .error (.malformedRule key found) ∧
          problem.text = key ++ ": " ++ String.intercalate ", " (found.map RuleProblem.text))
        keys problems) :
      Reported keys (.malformedRule (String.intercalate ", " keys) problems)

/-- Rules that were read from entries in turn, each with the value of its entry. -/
def ReadEach {α : Type} (entries : List (String × α)) (rules : List (Rule × α)) : Prop :=
  List.Forall₂ (fun entry rule => parse entry.1 = .ok rule.1 ∧ rule.2 = entry.2) entries rules

theorem malformed_append (keys others : List String) :
    malformed (keys ++ others) = malformed keys ++ malformed others :=
  List.filter_append ..

/-- A key is either read, or its error lists its problems. -/
theorem parse_cases (key : String) :
    (problems key = [] ∧ ∃ rule, parse key = .ok rule) ∨
      (problems key ≠ [] ∧ parse key = .error (.malformedRule key (problems key))) := by
  cases hparse : parse key with
  | ok rule =>
    exact .inl ⟨parse_isOk_iff.1 ⟨rule, hparse⟩, rule, rfl⟩
  | error error =>
    refine .inr ⟨fun hnone => ?_, by rw [of_parse_eq_error hparse]⟩
    obtain ⟨rule, hrule⟩ := parse_isOk_iff.2 hnone
    rw [hparse] at hrule
    cases hrule

theorem not_isOk_parse (key : String) : (!(parse key).isOk) = !(problems key).isEmpty := by
  rcases parse_cases key with ⟨hnone, rule, hrule⟩ | ⟨hsome, herror⟩
  · rw [hnone, hrule]
    rfl
  · rw [herror, List.isEmpty_eq_false_iff.2 hsome]
    rfl

theorem mem_malformed {keys : List String} {key : String} :
    key ∈ malformed keys ↔ key ∈ keys ∧ ¬ ∃ rule, parse key = .ok rule := by
  rw [malformed, List.mem_filter, not_isOk_parse, parse_isOk_iff, Bool.not_eq_true',
    List.isEmpty_eq_false_iff]

theorem parse_of_mem_malformed {keys : List String} {key : String} (h : key ∈ malformed keys) :
    parse key = .error (.malformedRule key (problems key)) :=
  ((parse_cases key).resolve_left fun hread => (mem_malformed.1 h).2 hread.2).2

/-- What reports malformed keys is an error about rule keys. -/
theorem Reported.exists_eq {keys : List String} {error : AlignmentError} (h : Reported keys error) :
    ∃ key problems, error = .malformedRule key problems := by
  cases h with
  | alone own => exact ⟨_, _, of_parse_eq_error own⟩
  | together several each => exact ⟨_, _, rfl⟩

theorem exists_readEach {α : Type} {entries : List (String × α)}
    (h : malformed (entries.map Prod.fst) = []) :
    ∃ rules, entries.mapM (fun entry => (parse entry.1).map fun rule => (rule, entry.2)) = .ok rules ∧
      ReadEach entries rules := by
  have hread : ∀ entry ∈ entries, ∃ rule, parse entry.1 = .ok rule := by
    intro entry hentry
    by_contra hnone
    have hmem := mem_malformed.2 ⟨List.mem_map_of_mem hentry, hnone⟩
    rw [h] at hmem
    cases hmem
  cases hrules : entries.mapM (fun entry => (parse entry.1).map fun rule => (rule, entry.2)) with
  | error error =>
    obtain ⟨entry, hentry, herror⟩ := exists_of_mapM_eq_error hrules
    obtain ⟨rule, hrule⟩ := hread entry hentry
    rw [hrule] at herror
    cases herror
  | ok rules =>
    refine ⟨rules, rfl, (mapM_eq_ok_iff.1 hrules).imp fun entry rule hentry => ?_⟩
    cases hparse : parse entry.1 with
    | error error =>
      rw [hparse] at hentry
      cases hentry
    | ok own =>
      rw [hparse] at hentry
      cases hentry
      exact ⟨rfl, rfl⟩

/-- Either every entry is read, or every key that is not is reported. -/
theorem parseAll_cases {α : Type} (entries : List (String × α)) :
    (malformed (entries.map Prod.fst) = [] ∧
      ∃ rules, parseAll entries = .ok rules ∧ ReadEach entries rules) ∨
    (malformed (entries.map Prod.fst) ≠ [] ∧
      ∃ error, parseAll entries = .error error ∧
        Reported (malformed (entries.map Prod.fst)) error) := by
  have hkeys : malformed (entries.map Prod.fst)
      = (entries.filter fun entry => !(problems entry.1).isEmpty).map Prod.fst := by
    rw [malformed, List.filter_map]
    refine congrArg (List.map Prod.fst) (List.filter_congr fun entry _ => ?_)
    exact not_isOk_parse entry.1
  have hown : ∀ key ∈ malformed (entries.map Prod.fst),
      parse key = .error (.malformedRule key (problems key)) :=
    fun _ hkey => parse_of_mem_malformed hkey
  rw [parseAll]
  generalize entries.filter (fun entry => !(problems entry.1).isEmpty) = faulty at hkeys
  rw [hkeys] at hown ⊢
  rcases faulty with _ | ⟨⟨key, value⟩, _ | ⟨second, rest⟩⟩
  · obtain ⟨rules, hrules, heach⟩ := exists_readEach hkeys
    exact .inl ⟨rfl, rules, hrules, heach⟩
  · exact .inr ⟨List.cons_ne_nil _ _, _, rfl, .alone (hown key List.mem_cons_self)⟩
  · refine .inr ⟨List.cons_ne_nil _ _, _, rfl, .together ?_ ?_⟩
    · rw [List.length_map, List.length_cons, List.length_cons]
      exact Nat.le_add_left 2 _
    · rw [List.forall₂_map_left_iff, List.forall₂_map_right_iff, List.forall₂_same]
      exact fun entry hentry => ⟨_, hown _ (List.mem_map_of_mem hentry), rfl⟩

end BuildAlignment.Rule
