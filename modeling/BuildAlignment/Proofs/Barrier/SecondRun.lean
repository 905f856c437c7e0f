import BuildAlignment.Proofs.Barrier.Renewal

/-!
# Running a build again

A build is aligned, and then aligned again with the tree of the first run. Its modules register at any
time in the first run and one after another in the second one.

* `Barrier.Opened.completes`: modules that register in any order complete the build, if what is
  collected of them leads to a tree.
* `Session.settled_of_completed`: the second run comes to the handle and the tree of the first one.
* `Session.unsettled_of_shared_coordinates`: it does not without the conditions on what is not aligned
  and on declared forms.
-/

namespace BuildAlignment

/-! ### Registering the modules of a run again -/

namespace Barrier

/-- Where the registrations have come in path order, they are collected as they are. -/
theorem inOrder_eq_registered {barrier : Barrier} (hdistinct : barrier.order.Nodup)
    (hpaths : barrier.registered.map Prod.fst = barrier.order) :
    barrier.inOrder = barrier.registered := by
  have hfound : ∀ entry ∈ barrier.registered, (barrier.registration? entry.1).map
      (fun registration => (entry.1, registration)) = some entry := by
    intro entry hentry
    rw [registration?_of_mem (hpaths ▸ hdistinct) hentry]
    rfl
  rw [inOrder, eraseDups_of_nodup hdistinct, ← hpaths, List.filterMap_map]
  exact (List.filterMap_congr hfound).trans List.filterMap_some

variable {tree : ModuleTree} {aligner : Aligner} {policy : BarrierPolicy} {barrier : Barrier}

/-- Registrations that come in any order are collected in path order. -/
theorem Opened.inOrder_collect (opened : Opened tree aligner policy barrier) (built : tree.Built)
    {modules : List Registered} (hpaths : modules.map Prod.fst = tree.paths)
    (hmeant : ∀ entry ∈ modules, tree.resolve entry.2.module = .ok entry.1)
    (hadmitted : ∀ entry ∈ modules, ∀ dependency ∈ entry.2.dependencies,
      ¬ policy.Rejects dependency)
    {order : List Registration} (horder : order.Perm (modules.map Prod.snd)) :
    (barrier.collect barrier order).inOrder = modules.map barrier.sift := by
  have ready := opened.ready built
  have hkept : (modules.map Prod.snd).filterMap barrier.keeps? = modules.map barrier.sift := by
    rw [List.filterMap_map, ← List.filterMap_eq_map]
    refine List.filterMap_congr ?_
    intro entry hentry
    refine keeps?_eq_some (opened.tree_eq ▸ hmeant entry hentry)
      (admitted_of_none_rejected _ _ ?_)
    intro dependency hdependency
    rw [opened.rejects_iff]
    exact hadmitted entry hentry dependency hdependency
  have hsifted : (modules.map barrier.sift).map Prod.fst = barrier.order := by
    rw [opened.eq, List.map_map, ← hpaths]
    rfl
  have hperm : (barrier.collect barrier order).registered.Perm (modules.map barrier.sift) := by
    rw [collect, ready.registered, List.nil_append, ← hkept]
    exact horder.filterMap _
  let sorted : Barrier := { barrier.collect barrier order with
    registered := modules.map barrier.sift }
  have hsorted : sorted.inOrder = modules.map barrier.sift :=
    inOrder_eq_registered ready.distinct hsifted
  rw [← hsorted]
  refine @inOrder_congr sorted _ ?_ hperm
  show ((modules.map barrier.sift).map Prod.fst).Nodup
  rw [hsifted]
  exact ready.distinct

/-- When the modules of a build register in any order, and what is collected of them leads to a tree,
the build is complete. -/
theorem Opened.completes (opened : Opened tree aligner policy barrier) (built : tree.Built)
    {modules : List Registered} (hpaths : modules.map Prod.fst = tree.paths)
    (hmeant : ∀ entry ∈ modules, tree.resolve entry.2.module = .ok entry.1)
    (hadmitted : ∀ entry ∈ modules, ∀ dependency ∈ entry.2.dependencies,
      ¬ policy.Rejects dependency)
    {order : List Registration} (horder : order.Perm (modules.map Prod.snd))
    {result : ModuleTree} {handle : AlignmentHandle}
    (houtcome : barrier.outcome (modules.map barrier.sift) = .ok (result, handle)) :
    (barrier.registerAll order).2
        = countdown (order.length - 1) ++ [.ok (.complete handle)] ∧
      (barrier.registerAll order).1.finishedHandle = .ok handle ∧
      (barrier.registerAll order).1.finishedModel = .ok result := by
  have each : (order.map fun registration => tree.resolve registration.module).Perm
      (tree.paths.map .ok) := by
    have hmodules : (modules.map Prod.snd).map (fun registration =>
        tree.resolve registration.module) = tree.paths.map Except.ok := by
      rw [← hpaths, List.map_map, List.map_map]
      exact List.map_congr_left hmeant
    rw [← hmodules]
    exact horder.map _
  have hadmitted' : ∀ registration ∈ order, ∀ dependency ∈ registration.dependencies,
      ¬ policy.Rejects dependency := by
    intro registration hmem dependency hdependency
    obtain ⟨entry, hentry, rfl⟩ := List.mem_map.1 (horder.mem_iff.1 hmem)
    exact hadmitted entry hentry dependency hdependency
  have halike : (barrier.collect barrier order).Alike barrier := ⟨rfl, rfl, rfl, rfl⟩
  have houtcome : (barrier.collect barrier order).outcome (barrier.collect barrier order).inOrder
      = .ok (result, handle) := by
    rw [opened.inOrder_collect built hpaths hmeant hadmitted horder, outcome_congr halike rfl,
      houtcome]
  obtain ⟨next, status, hanswers, hends⟩ := opened.exists_finishes built each hadmitted'
  rw [hanswers]
  cases hends with
  | completed outcome =>
    rw [houtcome] at outcome
    cases outcome
    exact ⟨rfl, rfl, rfl⟩
  | failed outcome =>
    rw [houtcome] at outcome
    cases outcome
  | aborted outcome =>
    rw [houtcome] at outcome
    cases outcome

end Barrier

namespace Session

theorem tally_run {tree : ModuleTree} {aligner : Aligner} {policy : BarrierPolicy} {start : Barrier}
    (built : tree.Built) (opened : Barrier.Opened tree aligner policy start)
    (registrations : List Registration) (schedule : List Nat) {session : Session}
    (hsession : session = (Session.start start registrations).run schedule) :
    Tally start session := by
  have ready := opened.ready built
  rw [hsession]
  exact (tally_start ready registrations).run ready (opened.steady registrations []) schedule

/-- No dependency of an accepted registration was rejected. -/
theorem Tally.not_rejects {start : Barrier} {session : Session} (h : Tally start session)
    {call : Nat × String} (hcall : call ∈ session.accepted) {registration : Registration}
    (hregistered : session.registrations[call.1]? = some registration) :
    ∀ dependency ∈ registration.dependencies, ¬ start.policy.Rejects dependency := by
  have hstored := h.stored
  generalize session.accepted = accepted, session.barrier.registered = registered
    at hstored hcall
  induction hstored with
  | nil => cases hcall
  | cons hfirst _ ih =>
    rcases List.mem_cons.1 hcall with rfl | hrest
    · obtain ⟨same, hsame, -, hadmitted⟩ := hfirst.registration
      rw [hregistered] at hsame
      cases hsame
      exact (of_admitted_eq_ok hadmitted).1
    · exact ih hrest

/-- A build that is run again with the tree of its first run comes to the same. -/
theorem settled_of_completed {tree : ModuleTree} {authority : Authority}
    {answer : Coordinate → Option String} {exclusions : List Exclusion}
    {adjustments : List Adjustment} {policy : BarrierPolicy} {fresh : Barrier} (built : tree.Built)
    (hself : ∀ path ∈ tree.paths, tree.resolve path = .ok path)
    (made : Barrier.new tree (.assembled (some authority) .rest exclusions adjustments) policy
      = .ok fresh)
    (pointwise : authority.Pointwise answer)
    (hpins : adjustments.any Adjustment.pinsDynamic = true)
    (registrations : List Registration) (schedule : List Nat) {session : Session}
    (hsession : session = (Session.start fresh registrations).run schedule)
    {handle : AlignmentHandle} (hhandle : session.barrier.finishedHandle = .ok handle)
    {result : ModuleTree} (hmodel : session.barrier.finishedModel = .ok result)
    (hunknown : ∀ coordinate ∈ result.replacementCoordinates, answer coordinate = none)
    (separate : BuildInputs.Separate ⟨session.registered tree.paths, none, .rest, exclusions,
      adjustments, []⟩ result handle)
    {order : List Registration}
    (horder : order.Perm ((session.registered tree.paths).map Prod.snd)) :
    session.Registers tree (session.registered tree.paths) ∧
      ((fresh.withPrevious result).registerAll order).2
        = Barrier.countdown (order.length - 1) ++ [.ok (.complete handle)] ∧
      ((fresh.withPrevious result).registerAll order).1.finishedHandle = .ok handle ∧
      ∃ renewed, ((fresh.withPrevious result).registerAll order).1.finishedModel = .ok renewed ∧
        renewed.nodes = result.nodes := by
  have opened : Barrier.Opened tree (.assembled (some authority) .rest exclusions adjustments)
    policy fresh := .new made
  have hresult : session.barrier.tree = result := by
    rw [Barrier.finishedModel, hhandle] at hmodel
    exact Except.ok.inj hmodel
  obtain ⟨houtcome, -, registers⟩ := outcome_of_completed built opened registrations schedule
    hsession (Barrier.of_finishedHandle_eq_ok hhandle)
  rw [hresult] at houtcome
  have tally := tally_run built opened registrations schedule hsession
  obtain ⟨renewed, hagain, hnodes⟩ := Barrier.outcome_settled built hself made pointwise hpins
    registers.paths houtcome hunknown separate
  have hmeant : ∀ entry ∈ session.registered tree.paths,
      tree.resolve entry.2.module = .ok entry.1 := by
    intro entry hentry
    obtain ⟨call, -, -, hresolve⟩ := registers.calls entry hentry
    exact hresolve
  have hadmitted : ∀ entry ∈ session.registered tree.paths,
      ∀ dependency ∈ entry.2.dependencies, ¬ policy.Rejects dependency := by
    intro entry hentry dependency hdependency
    obtain ⟨call, haccepted, hregistered, -⟩ := registers.calls entry hentry
    rw [← opened.rejects_iff]
    exact tally.not_rejects haccepted hregistered dependency hdependency
  have reopened := Barrier.Opened.seeded result opened
  obtain ⟨hanswers, hfinished, hfound⟩ :=
    reopened.completes built registers.paths hmeant hadmitted horder hagain
  exact ⟨registers, hanswers, hfinished, renewed, hfound, hnodes⟩

end Session

namespace SmallBuild

def knowing (known : NewVersions) (adjustments : List Adjustment) : Barrier :=
  { aligner := .assembled (some fun _ => .ok known) .rest [] adjustments
    policy := {}, order := [":", ":core"], remaining := [":", ":core"], tree }

/-- What the first run of a build and a second one that is seeded with its tree tell to be not
aligned. The authority knows nothing of what the first run has put into the tree. -/
def RunsApart (known : NewVersions) (adjustments : List Adjustment) (modules : List Registration)
    (told toldAgain : Keyed (List Coordinate)) : Prop :=
  let first := ((knowing known adjustments).registerAll modules).1
  let second := (((knowing known adjustments).withPrevious first.tree).registerAll modules).1
  first.finishedHandle.map AlignmentHandle.nonAligned = .ok told ∧
    second.finishedHandle.map AlignmentHandle.nonAligned = .ok toldAgain ∧
    (∀ coordinate ∈ first.tree.replacementCoordinates, known.find? coordinate = none) ∧
    told ≠ toldAgain

instance (known : NewVersions) (adjustments : List Adjustment) (modules : List Registration)
    (told toldAgain : Keyed (List Coordinate)) :
    Decidable (RunsApart known adjustments modules told toldAgain) :=
  inferInstanceAs (Decidable (_ ∧ _ ∧ _ ∧ _))

end SmallBuild

open SmallBuild in
/-- A build in which one dependency is answered, one pinned, one overridden, and two missed. The
modules register the other way round when it is run again. -/
theorem Session.settled_of_small_build :
    let session := (Session.start adjustedBarrier bothModules).run [0, 1, 0, 1, 1, 1]
    let handle : AlignmentHandle := ⟨"1.0", false,
      [(":", [⟨"org.lib", "text", "1.0"⟩]), (":core", [⟨"org.lib", "base", "1.0"⟩])]⟩
    session.barrier.phase = .completed handle ∧
      session.barrier.tree.replacementCoordinates = [⟨"org.lib", "http", "2.0"⟩,
        ⟨"org.lib", "rpc", "1.3"⟩, ⟨"org.log", "api", "3.0"⟩] ∧
      ((adjustedBarrier.withPrevious session.barrier.tree).registerAll bothModules.reverse).2
        = [.ok (.pending 1), .ok (.complete handle)] := by
  intro session handle
  have hphase : session.barrier.phase = .completed handle := by decide +kernel
  have hreplaced : session.barrier.tree.replacementCoordinates = [⟨"org.lib", "http", "2.0"⟩,
      ⟨"org.lib", "rpc", "1.3"⟩, ⟨"org.log", "api", "3.0"⟩] := by decide +kernel
  obtain ⟨hhandle, hmodel⟩ := Barrier.finished_of_completed hphase
  have made : Barrier.new tree (.assembled (some answers) .rest [] changes) {}
      = .ok adjustedBarrier := rfl
  have pointwise : Authority.Pointwise answers
      fun coordinate => NewVersions.find? coordinate [(⟨"org.lib", "http", "1.0"⟩, "2.0")] :=
    fun _ => ⟨_, rfl, fun _ _ => rfl⟩
  have hunknown : ∀ coordinate ∈ session.barrier.tree.replacementCoordinates,
      NewVersions.find? coordinate [(⟨"org.lib", "http", "1.0"⟩, "2.0")] = none := by
    rw [hreplaced]
    decide
  have separate : BuildInputs.Separate ⟨session.registered tree.paths, none, .rest, [], changes,
      []⟩ session.barrier.tree handle := ⟨by decide +kernel, by decide +kernel⟩
  have horder : bothModules.reverse.Perm ((session.registered tree.paths).map Prod.snd) := by
    rw [show (session.registered tree.paths).map Prod.snd = bothModules by decide +kernel]
    exact List.reverse_perm _
  obtain ⟨-, hanswers, -⟩ := settled_of_completed built paths_self made pointwise rfl bothModules
    [0, 1, 0, 1, 1, 1] rfl hhandle hmodel hunknown separate horder
  exact ⟨hphase, hreplaced, hanswers⟩

open SmallBuild in
/-- Three builds that do not come to the same when they are run again, although the authority knows
nothing of what their trees hold. In the first one a module depends on the release that another one
is aligned to. In the second one a module declares one coordinate for two releases of which one is
known. In the third one it declares one coordinate for two artifacts, and one of these is pinned only
as long as another module depends on it. -/
theorem Session.unsettled_of_shared_coordinates :
    (∀ path ∈ tree.paths, tree.resolve path = .ok path) ∧
    (∀ known adjustments,
      Barrier.new tree (.assembled (some fun _ => .ok known) .rest [] adjustments) {}
        = .ok (knowing known adjustments)) ∧
    RunsApart [(⟨"org.lib", "base", "1.0"⟩, "2.0")] [.pinDynamic]
      [registrationOf ":" "app" [.exact ⟨"org.lib", "base", "1.0"⟩],
        registrationOf ":core" "core" [.exact ⟨"org.lib", "base", "2.0"⟩]]
      [(":core", [⟨"org.lib", "base", "2.0"⟩])] [] ∧
    RunsApart [(⟨"org.lib", "base", "1.1"⟩, "2.0")] [.pinDynamic]
      [registrationOf ":" "app" [⟨⟨"org.lib", "base", "1.0"⟩, some ⟨"org.lib", "base", "1.1"⟩⟩,
          ⟨⟨"org.lib", "base", "1.0"⟩, some ⟨"org.lib", "base", "1.2"⟩⟩],
        registrationOf ":core" "core" []]
      [(":", [⟨"org.lib", "base", "1.2"⟩])] [] ∧
    RunsApart [(⟨"org.lib", "text", "1.0"⟩, "5.0")]
      [.pinDynamic, .override [(⟨"org.lib:base@org.example:core",
        ⟨.literal "org.lib", .literal "base", .wildcard⟩,
        .owner (.literal "org.example") (.literal "core")⟩, "6.0")]]
      [registrationOf ":" "app" [⟨⟨"org.lib", "all", "1.0"⟩, some ⟨"org.lib", "base", "5.0"⟩⟩,
          ⟨⟨"org.lib", "all", "1.0"⟩, some ⟨"org.lib", "text", "1.0"⟩⟩],
        registrationOf ":core" "core"
          [⟨⟨"org.lib", "base", "5.+"⟩, some ⟨"org.lib", "base", "5.0"⟩⟩]]
      [] [(":", [⟨"org.lib", "base", "5.0"⟩])] := by
  exact ⟨paths_self, fun _ _ => rfl, by decide +kernel, by decide +kernel, by decide +kernel⟩

end BuildAlignment
