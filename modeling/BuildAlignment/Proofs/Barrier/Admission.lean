import BuildAlignment.Barrier.Registration

/-!
# Which dependencies are admitted

* `BarrierPolicy.Rejects` holds of a dependency that fails the build, `Dependency.takesPart` of one
  that stays.
* `admitted_of_none_rejected` and `admitted_of_rejected` say what becomes of a registration in
  either case.
-/

namespace BuildAlignment

/-- A dependency with a group that could not be resolved, where this is not to be overlooked. -/
def BarrierPolicy.Rejects (policy : BarrierPolicy) (dependency : Dependency) : Prop :=
  Text.isBlank dependency.declared.group = false ∧ dependency.resolved = none ∧
    policy.ignoreUnresolvable = false

/-- A dependency that has a group and could be resolved. -/
def Dependency.takesPart (dependency : Dependency) : Bool :=
  !Text.isBlank dependency.declared.group && dependency.resolved.isSome

theorem admitDependencies_of_none_rejected {policy : BarrierPolicy} (recorded : Keyed Coordinate)
    (path : String) {dependencies : List Dependency}
    (h : ∀ dependency ∈ dependencies, ¬ policy.Rejects dependency) :
    admitDependencies policy recorded path dependencies
      = .ok ((dependencies.filter Dependency.takesPart).map (Dependency.seed recorded)) := by
  induction dependencies with
  | nil => rfl
  | cons dependency rest ih =>
    have hrest := ih fun other hother => h other (List.mem_cons_of_mem _ hother)
    have hhead := h dependency List.mem_cons_self
    rw [admitDependencies]
    by_cases hblank : Text.isBlank dependency.declared.group
    · rw [if_pos hblank, hrest, List.filter_cons_of_neg (by simp [Dependency.takesPart, hblank])]
    · rw [if_neg hblank]
      by_cases hnone : dependency.resolved.isNone
      · have hignore : policy.ignoreUnresolvable = true := by
          cases hstrict : policy.ignoreUnresolvable with
          | true => rfl
          | false => exact absurd ⟨by simpa using hblank, by simpa using hnone, hstrict⟩ hhead
        have hout : ¬ dependency.takesPart = true := by
          simp [Dependency.takesPart, Option.isNone_iff_eq_none.1 hnone]
        rw [if_pos hnone, if_pos hignore, hrest, List.filter_cons_of_neg hout]
      · have hin : dependency.takesPart = true := by
          cases hresolved : dependency.resolved with
          | none => exact absurd (by rw [hresolved]; rfl) hnone
          | some resolved => simp [Dependency.takesPart, hresolved, hblank]
        rw [if_neg hnone, hrest, List.filter_cons_of_pos hin]
        rfl

theorem admitDependencies_of_rejected {policy : BarrierPolicy} (recorded : Keyed Coordinate)
    (path : String) {dependencies : List Dependency}
    (h : ∃ dependency ∈ dependencies, policy.Rejects dependency) :
    ∃ dependency ∈ dependencies, policy.Rejects dependency ∧
      admitDependencies policy recorded path dependencies
        = .error (.unresolvableDependency path dependency.declared.display) := by
  induction dependencies with
  | nil => simp at h
  | cons dependency rest ih =>
    rw [admitDependencies]
    by_cases hhead : policy.Rejects dependency
    · obtain ⟨hblank, hnone, hstrict⟩ := hhead
      refine ⟨dependency, List.mem_cons_self, ⟨hblank, hnone, hstrict⟩, ?_⟩
      rw [if_neg (by simp [hblank]), if_pos (by simp [hnone]), if_neg (by simp [hstrict])]
    · have hrest : ∃ other ∈ rest, policy.Rejects other := by
        obtain ⟨other, hother, hrejects⟩ := h
        rcases List.mem_cons.1 hother with rfl | hmem
        · exact absurd hrejects hhead
        · exact ⟨other, hmem, hrejects⟩
      obtain ⟨other, hother, hrejects, hadmitted⟩ := ih hrest
      refine ⟨other, List.mem_cons_of_mem _ hother, hrejects, ?_⟩
      by_cases hblank : Text.isBlank dependency.declared.group
      · rw [if_pos hblank, hadmitted]
      · rw [if_neg hblank]
        by_cases hnone : dependency.resolved.isNone
        · rw [if_pos hnone, if_neg (by simp [hrejects.2.2])]
          exact absurd ⟨by simpa using hblank, by simpa using hnone, hrejects.2.2⟩ hhead
        · rw [if_neg hnone, hadmitted]
          rfl

/-- A registration without rejected dependencies keeps those that take part, seeded. -/
theorem admitted_of_none_rejected {policy : BarrierPolicy} (recorded : Keyed Coordinate)
    (path : String) {registration : Registration}
    (h : ∀ dependency ∈ registration.dependencies, ¬ policy.Rejects dependency) :
    registration.admitted policy recorded path = .ok
      { registration with
        dependencies := (registration.dependencies.filter Dependency.takesPart).map
          (Dependency.seed recorded) } := by
  rw [Registration.admitted, admitDependencies_of_none_rejected recorded path h]
  rfl

/-- A registration with a rejected dependency is an error about such a dependency. -/
theorem admitted_of_rejected {policy : BarrierPolicy} (recorded : Keyed Coordinate) (path : String)
    {registration : Registration}
    (h : ∃ dependency ∈ registration.dependencies, policy.Rejects dependency) :
    ∃ dependency ∈ registration.dependencies, policy.Rejects dependency ∧
      registration.admitted policy recorded path
        = .error (.unresolvableDependency path dependency.declared.display) := by
  obtain ⟨dependency, hmem, hrejects, hadmitted⟩ := admitDependencies_of_rejected recorded path h
  refine ⟨dependency, hmem, hrejects, ?_⟩
  rw [Registration.admitted, hadmitted]
  rfl

/-- What was admitted is the registration without rejected dependencies, with those that take part
seeded. -/
theorem of_admitted_eq_ok {policy : BarrierPolicy} {recorded : Keyed Coordinate} {path : String}
    {registration admitted : Registration}
    (h : registration.admitted policy recorded path = .ok admitted) :
    (∀ dependency ∈ registration.dependencies, ¬ policy.Rejects dependency) ∧
      admitted = { registration with
        dependencies := (registration.dependencies.filter Dependency.takesPart).map
          (Dependency.seed recorded) } := by
  by_cases hrejected : ∃ dependency ∈ registration.dependencies, policy.Rejects dependency
  · obtain ⟨dependency, -, -, hadmitted⟩ := admitted_of_rejected recorded path hrejected
    rw [hadmitted] at h
    cases h
  · have hnone : ∀ dependency ∈ registration.dependencies, ¬ policy.Rejects dependency :=
      fun dependency hmem hrejects => hrejected ⟨dependency, hmem, hrejects⟩
    rw [admitted_of_none_rejected recorded path hnone] at h
    exact ⟨hnone, (Except.ok.inj h).symm⟩

/-- A registration that was not admitted has a rejected dependency, and the error names it. -/
theorem of_admitted_eq_error {policy : BarrierPolicy} {recorded : Keyed Coordinate} {path : String}
    {registration : Registration} {error : AlignmentError}
    (h : registration.admitted policy recorded path = .error error) :
    ∃ dependency ∈ registration.dependencies, policy.Rejects dependency ∧
      error = .unresolvableDependency path dependency.declared.display := by
  by_cases hrejected : ∃ dependency ∈ registration.dependencies, policy.Rejects dependency
  · obtain ⟨dependency, hmem, hrejects, hadmitted⟩ := admitted_of_rejected recorded path hrejected
    rw [hadmitted] at h
    exact ⟨dependency, hmem, hrejects, (Except.error.inj h).symm⟩
  · have hnone : ∀ dependency ∈ registration.dependencies, ¬ policy.Rejects dependency :=
      fun dependency hmem hrejects => hrejected ⟨dependency, hmem, hrejects⟩
    rw [admitted_of_none_rejected recorded path hnone] at h
    cases h

end BuildAlignment
