import BuildAlignment.Proofs.Barrier.Replacements

/-!
# Earlier alignments

What an earlier alignment recorded for a dependency stays, unless an override or the authority has
another version for it. The dependency is never told to be not aligned.

* `BuildInputs.Continues` holds of a dependency for which a recorded replacement counts.
* `BuildInputs.standing` is what such a replacement comes to.
* `BuildInputs.Continues.version?_eq`: a recorded replacement that counts has a version, as it is
  pinned.
* `Session.standing_of_completed`: after a completed build it stands in the tree.
-/

namespace BuildAlignment

namespace BuildInputs

/-- A replacement was recorded for a dependency of a module and counts: the dependency is aligned,
no other one that is aligned shares its text form, and the replacement has another version than
what the dependency was resolved to, or is just that. -/
structure Continues (inputs : BuildInputs) (entry : Registered) (dependency : Dependency)
    (recorded : Coordinate) : Prop where
  listed : dependency ∈ entry.2.dependencies
  kept : inputs.keeps entry.2.coordinate dependency = true
  alone : ∀ other ∈ entry.2.dependencies, inputs.keeps entry.2.coordinate other = true →
    other.declared.display = dependency.declared.display → other = dependency
  found : inputs.recorded? entry.1 dependency = some recorded
  counts : ∃ resolved, dependency.resolved = some resolved ∧
    (recorded.version ≠ resolved.version ∨ recorded = resolved)

/-- A recorded replacement with the version of an override, else that of the answer, else its
own. -/
def standing (inputs : BuildInputs) (recorded owner : Coordinate) : Coordinate :=
  recorded.withVersion <|
    ((inputs.overridden? recorded owner).or (inputs.answered? recorded)).getD recorded.version

variable {inputs : BuildInputs} {entry : Registered} {dependency : Dependency}
  {recorded : Coordinate}

theorem Continues.resolved_renewed (h : inputs.Continues entry dependency recorded) :
    (inputs.renewed entry.1 dependency).resolved = some recorded := by
  obtain ⟨resolved, hresolved, hcounts⟩ := h.counts
  rw [renewed, hresolved, Option.map_some, h.found, Coordinate.renewed]
  split
  · rename_i hsame
    rcases hcounts with hne | heq
    · exact absurd hsame hne
    · rw [heq]
  · rfl

theorem Continues.pinsRecorded (h : inputs.Continues entry dependency recorded)
    (hentry : entry ∈ inputs.modules) (hsource : inputs.source = .rest) :
    inputs.pinsRecorded recorded = true :=
  pinsRecorded_of_renewed hsource hentry h.listed h.kept h.found h.resolved_renewed

/-- What was recorded has a version, at least its own. -/
theorem Continues.version?_eq (h : inputs.Continues entry dependency recorded)
    (hentry : entry ∈ inputs.modules) (hsource : inputs.source = .rest) (owner : Coordinate) :
    inputs.version? recorded owner
      = some (((inputs.overridden? recorded owner).or (inputs.answered? recorded)).getD
          recorded.version) := by
  refine version?_of_pinned ?_ owner
  rw [h.pinsRecorded hentry hsource, Bool.or_true]

theorem Continues.replacements_eq (h : inputs.Continues entry dependency recorded)
    (hentry : entry ∈ inputs.modules) (hsource : inputs.source = .rest) :
    (inputs.replacements entry).find? dependency.declared.display
      = some (inputs.standing recorded entry.2.coordinate) := by
  have hwritten : (inputs.renewed entry.1 dependency).replacement?
        (fun coordinate => inputs.version? coordinate entry.2.coordinate)
      = some (dependency.declared.display, inputs.standing recorded entry.2.coordinate) := by
    rw [Dependency.replacement?, h.resolved_renewed, Option.bind_some,
      h.version?_eq hentry hsource]
    rfl
  rw [replacements]
  refine Keyed.find?_ofEntries_of_agree ?_ ?_
  · refine List.mem_filterMap.2 ⟨inputs.renewed entry.1 dependency, ?_, hwritten⟩
    exact mem_kept h.listed h.kept
  · intro written hmem hkey
    obtain ⟨renewed, hrenewed, hreplacement⟩ := List.mem_filterMap.1 hmem
    obtain ⟨other, hother, rfl⟩ := List.mem_map.1 hrenewed
    obtain ⟨hlisted, hkept⟩ := List.mem_filter.1 hother
    -- What else is written under this text form comes from the same declaration.
    have hsame : other = dependency := by
      refine h.alone other hlisted hkept ?_
      rw [← hkey, Dependency.fst_of_replacement? hreplacement]
      rfl
    rw [hsame, hwritten] at hreplacement
    rw [← Option.some.inj hreplacement]

theorem Continues.not_mem_unaligned? (h : inputs.Continues entry dependency recorded)
    (hentry : entry ∈ inputs.modules) (hsource : inputs.source = .rest) :
    recorded ∉ (inputs.unaligned? entry).getD [] := by
  have hnot : recorded ∉ inputs.missing entry := by
    intro hmem
    have hnone := (List.mem_filter.1 hmem).2
    rw [h.version?_eq hentry hsource] at hnone
    cases hnone
  rw [unaligned?]
  split
  · exact List.not_mem_nil
  · exact hnot

/-- A replacement that was recorded for a dependency of a module stands, and the dependency is not
told to be not aligned. -/
def Stands (inputs : BuildInputs) (result : ModuleTree) (handle : AlignmentHandle) : Prop :=
  ∀ entry ∈ inputs.modules, ∀ dependency recorded,
    inputs.Continues entry dependency recorded →
      ∃ found, result.find entry.1 = .ok found ∧
        found.info.aligned? dependency.declared.display
          = some (inputs.standing recorded entry.2.coordinate) ∧
        recorded ∉ (handle.nonAligned.find? entry.1).getD []

theorem Gives.stands {result : ModuleTree} {handle : AlignmentHandle}
    (h : inputs.Gives result handle) (hsource : inputs.source = .rest) :
    inputs.Stands result handle := by
  intro entry hentry dependency recorded hcontinues
  obtain ⟨found, hfound, haligned, hunaligned⟩ := h entry hentry
  refine ⟨found, hfound, ?_, ?_⟩
  · rw [ModuleInfo.aligned?, haligned]
    exact hcontinues.replacements_eq hentry hsource
  · rw [hunaligned]
    exact hcontinues.not_mem_unaligned? hentry hsource

end BuildInputs

/-- In a completed build that asked an authority, what an earlier alignment recorded stands. -/
theorem Session.standing_of_completed {tree earlier : ModuleTree} {authority : Option Authority}
    {exclusions : List Exclusion} {adjustments : List Adjustment} {policy : BarrierPolicy}
    {fresh : Barrier} (built : tree.Built)
    (hself : ∀ path ∈ tree.paths, tree.resolve path = .ok path)
    (hearlier : ∀ path ∈ earlier.paths, earlier.resolve path = .ok path)
    (made : Barrier.new tree (.assembled authority .rest exclusions adjustments) policy
      = .ok fresh)
    (registrations : List Registration) (schedule : List Nat) {session : Session}
    (hsession : session
      = (Session.start (fresh.withPrevious earlier) registrations).run schedule)
    {handle : AlignmentHandle} (hhandle : session.barrier.finishedHandle = .ok handle)
    {result : ModuleTree} (hmodel : session.barrier.finishedModel = .ok result) :
    session.Registers tree (session.registered tree.paths) ∧
    ∃ versions, Answered authority .rest session.barrier.asked versions ∧
      BuildInputs.Stands ⟨session.registered tree.paths, some earlier, .rest, exclusions,
        adjustments, versions⟩ result handle := by
  have opened := Barrier.opened_seededWith made (some earlier)
  obtain ⟨registers, hasked, combined, answer, adjusted, success⟩ :=
    success_of_completed built opened registrations schedule hsession hhandle hmodel
  have haligner : (fresh.seededWith (some earlier)).aligner
      = .assembled authority .rest exclusions adjustments := by
    rw [opened.eq]
  have htree : (fresh.seededWith (some earlier)).tree = tree := opened.tree_eq
  have hanswered := success.answered
  rw [haligner, Aligner.assembled_eq, ← hasked] at hanswered
  refine ⟨registers, answer.versions, hanswered, ?_⟩
  have hprevious : ∀ known ∈ some earlier, ∀ path ∈ known.paths, known.resolve path = .ok path := by
    intro known hknown
    rw [← Option.mem_some.1 hknown]
    exact hearlier
  have known : BuildInputs.Known ⟨session.registered tree.paths, some earlier, .rest, exclusions,
      adjustments, answer.versions⟩ (fresh.seededWith (some earlier)).recorded :=
    BuildInputs.known_seededWith built hprevious made registers.paths
  have hgives := known.gives_of_success haligner (htree.symm ▸ built) (htree.symm ▸ hself)
    (htree.symm ▸ registers.paths) success rfl
  exact hgives.stands rfl

namespace SmallBuild

/-- The tree of the build after an earlier alignment, which recorded three replacements for the
module below the application. -/
def aligned : ModuleTree :=
  .node (.new "app" "org.example") [("core", .single
    { ModuleInfo.new "core" "org.example" with
      aligned := [("org.lib:base:1.0", ⟨"org.lib", "base", "1.5"⟩),
        ("org.lib:http:1.+", ⟨"org.lib", "http", "1.2"⟩),
        ("org.log:api:1.0", ⟨"org.log", "api", "1.1"⟩)] })]

def newer : NewVersions := [(⟨"org.lib", "http", "1.2"⟩, "2.0")]

def renewedBarrier : Barrier :=
  { aligner := .assembled (some fun _ => .ok newer) .rest [] changes
    policy := {}, order := [":", ":core"], remaining := [":", ":core"], tree }

def base : Dependency := .exact ⟨"org.lib", "base", "1.0"⟩

def core : Registration :=
  registrationOf ":core" "core"
    [base, ⟨⟨"org.lib", "http", "1.+"⟩, some ⟨"org.lib", "http", "1.2"⟩⟩,
      .exact ⟨"org.log", "api", "1.0"⟩]

theorem aligned_paths_self : ∀ path ∈ aligned.paths, aligned.resolve path = .ok path :=
  ModuleTree.paths_self_of_locatePath? (by decide)

end SmallBuild

open SmallBuild in
/-- Of three replacements one stands as it was recorded, one gets the version of the authority, and
one that of an override. -/
theorem Session.standing_of_renewed_build :
    let session := (Session.start (renewedBarrier.withPrevious aligned)
      [registrationOf ":" "app" [], core]).run [0, 1, 0, 1, 1, 1]
    let handle : AlignmentHandle := ⟨"1.0", false, []⟩
    let inputs : BuildInputs :=
      ⟨session.registered tree.paths, some aligned, .rest, [], changes, newer⟩
    session.barrier.phase = .completed handle ∧
      (session.barrier.tree.find ":core").toOption.map (fun found => found.info.aligned)
        = some [("org.lib:base:1.0", ⟨"org.lib", "base", "1.5"⟩),
          ("org.lib:http:1.+", ⟨"org.lib", "http", "2.0"⟩),
          ("org.log:api:1.0", ⟨"org.log", "api", "3.0"⟩)] ∧
      inputs.Continues (":core", core) base ⟨"org.lib", "base", "1.5"⟩ ∧
      session.Registers tree inputs.modules ∧
      inputs.Stands session.barrier.tree handle := by
  intro session handle inputs
  have hphase : session.barrier.phase = .completed handle := by decide +kernel
  obtain ⟨hhandle, hmodel⟩ := Barrier.finished_of_completed hphase
  have made : Barrier.new tree (.assembled (some fun _ => .ok newer) .rest [] changes) {}
      = .ok renewedBarrier := rfl
  obtain ⟨registers, versions, hanswered, hstands⟩ := standing_of_completed built paths_self
    aligned_paths_self made [registrationOf ":" "app" [], core] [0, 1, 0, 1, 1, 1] rfl hhandle
    hmodel
  obtain rfl : newer = versions := by
    cases hanswered with
    | rest there answer =>
      cases there
      exact Except.ok.inj answer
  refine ⟨hphase, by decide +kernel, ?_, registers, hstands⟩
  exact ⟨by decide +kernel, by decide +kernel, by decide +kernel, by decide +kernel,
    ⟨_, rfl, .inl (by decide)⟩⟩

end BuildAlignment
