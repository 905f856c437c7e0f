import BuildAlignment.Proofs.Alignment.Assembly
import BuildAlignment.Proofs.Barrier.Calls
import BuildAlignment.Proofs.Sequence
import BuildAlignment.Proofs.Version.Cut

/-!
# A barrier is never stuck

When calls come one after another, a barrier that has nothing left to wait for has completed or
failed. The one way around this is an alignment that is given up because a version cannot be cut or
a counter cannot be written.

* `Barrier.Feasible` rules this out for a barrier and some registrations.
* `Barrier.Feasible.outcome_ne_aborted`: then no alignment is given up.
* `Barrier.Resting` is the invariant between two calls, kept by `Barrier.Resting.step`.
* `Barrier.unstuck_registerAll`: calls that come one after another are never stuck.
* `Barrier.stuck_on_wide_character`: a version that cannot be cut leaves a barrier that waits for
  nobody and has neither completed nor failed.
-/

namespace BuildAlignment

open AlignmentError (FailsBuild)
open SmallBuild (registrationOf)

/-! ### Alignments that are given up -/

/-- Without an answer for the coordinates of a build there is a version that cannot be cut. -/
theorem of_combinedRequest_eq_aborted {policy : BarrierPolicy} {modules : List Registered}
    (h : combinedRequest policy modules = .error .aborted) :
    ∃ entry ∈ modules, ¬ Version.Cuttable entry.2.coordinate.version := by
  rw [combinedRequest] at h
  split at h
  · rename_i hprojects
    obtain ⟨entry, hentry, hnone⟩ := exists_of_mapM_eq_none hprojects
    refine ⟨entry, (List.mem_filter.1 hentry).1, ?_⟩
    rw [projectCoordinate?] at hnone
    split at hnone
    · cases hnone
    · rw [Version.Cuttable, Option.map_eq_none_iff.1 hnone]
      simp
  · split at h
    · cases h
    · cases h

/-- No adjustment changes the version that the authority has for the build. -/
theorem Adjustment.rawProjectVersion_of_applied? {adjustment : Adjustment} {request : Request}
    {response adjusted : Response} (h : adjustment.applied? request response = some adjusted) :
    adjusted.rawProjectVersion = response.rawProjectVersion := by
  cases adjustment with
  | override rules =>
    cases h
    rfl
  | projectVersion settings =>
    obtain ⟨version, -, rfl⟩ := Option.map_eq_some_iff.1 h
    rfl
  | pinDynamic =>
    cases h
    rfl

/-- Adjustments are given up for the version of the build only. -/
theorem Aligner.of_adjusted?_eq_none {aligner : Aligner} {request : Request} {response : Response}
    (h : aligner.adjusted? request response = none) :
    ∃ settings, .projectVersion settings ∈ aligner.adjustments ∧
      settings.compute? response.rawProjectVersion request.projectVersion = none := by
  rw [adjusted?] at h
  generalize aligner.adjustments = adjustments at h ⊢
  induction adjustments generalizing response with
  | nil => cases h
  | cons adjustment rest ih =>
    rw [List.foldlM_cons] at h
    cases happlied : adjustment.applied? request response with
    | some next =>
      rw [happlied] at h
      obtain ⟨settings, hmem, hnone⟩ := ih h
      rw [Adjustment.rawProjectVersion_of_applied? happlied] at hnone
      exact ⟨settings, List.mem_cons_of_mem _ hmem, hnone⟩
    | none =>
      cases adjustment with
      | override rules => cases happlied
      | pinDynamic => cases happlied
      | projectVersion settings =>
        exact ⟨settings, List.mem_cons_self, Option.map_eq_none_iff.1 happlied⟩

/-- The version of the build that an answer gives is one of its versions. -/
theorem Response.mem_of_rawProjectVersion {versions : NewVersions} {projects : List Coordinate}
    {version : String} (h : (ofVersions versions projects).rawProjectVersion = some version) :
    ∃ entry ∈ versions, entry.2 = version := by
  obtain ⟨hfound, -⟩ := Option.filter_eq_some_iff.1 h
  obtain ⟨project, -, hproject⟩ := Option.bind_eq_some_iff.1 hfound
  exact ⟨_, NewVersions.mem_of_find? hproject, rfl⟩

/-- An alignment is given up where a change of the version of the build has no answer. It would have
started from a version that an authority answered or from the requested one. -/
theorem Aligner.of_align_eq_aborted {aligner : Aligner} {incoming : Request}
    (h : (aligner.align incoming).outcome = .aborted) :
    ∃ settings, .projectVersion settings ∈ aligner.adjustments ∧
      ∃ raw, settings.compute? raw incoming.projectVersion = none ∧
        ∀ version ∈ raw, ∃ ask ∈ aligner.authority, ∃ asked versions,
          ask asked = .ok versions ∧ ∃ entry ∈ versions, entry.2 = version := by
  have hadjusted : ∀ {wrap : Alignment → AlignmentOutcome} {response : Response},
      (∀ alignment, wrap alignment ≠ .aborted) →
      aligner.outcomeOf wrap (aligner.restricted incoming) response = .aborted →
      ∃ settings, .projectVersion settings ∈ aligner.adjustments ∧
        settings.compute? response.rawProjectVersion incoming.projectVersion = none := by
    intro wrap response hwrap houtcome
    rw [outcomeOf] at houtcome
    split at houtcome
    · exact absurd houtcome (hwrap _)
    · rename_i hnone
      have hversion : (aligner.restricted incoming).projectVersion = incoming.projectVersion := by
        rw [restricted, Exclusion.foldl_apply]
        rfl
      rw [← hversion]
      exact of_adjusted?_eq_none hnone
  rw [align] at h
  split at h
  · obtain ⟨settings, hmem, hnone⟩ := hadjusted (by simp) h
    exact ⟨settings, hmem, none, hnone, by simp⟩
  · cases h
  · rename_i ask _ hthere
    dsimp only at h
    split at h
    · cases h
    · rename_i versions hanswer
      obtain ⟨settings, hmem, hnone⟩ := hadjusted (by simp) h
      refine ⟨settings, hmem, _, hnone, ?_⟩
      intro version hversion
      exact ⟨ask, hthere, _, versions, hanswer, Response.mem_of_rawProjectVersion hversion⟩

namespace Barrier

/-- Whatever has to be cut on the way to an alignment of these registrations can be cut, and every
counter can be written. -/
structure Feasible (start : Barrier) (registrations : List Registration) : Prop where
  registered : ∀ registration ∈ registrations,
    Version.Cuttable registration.coordinate.version
  answered : ∀ ask ∈ start.aligner.authority, ∀ asked versions, ask asked = .ok versions →
    ∀ entry ∈ versions, Version.Cuttable entry.2
  counted : ∀ settings, .projectVersion settings ∈ start.aligner.adjustments →
    settings.enabled = true → settings.versionOverride = none →
      (∀ previous ∈ settings.previousVersion, Version.Cuttable previous) ∧
      settings.padding ≤ Version.widestPadding

theorem Feasible.mono {start : Barrier} {registrations others : List Registration}
    (h : Feasible start registrations) (hothers : ∀ other ∈ others, other ∈ registrations) :
    Feasible start others :=
  ⟨fun other hother => h.registered other (hothers other hother), h.answered, h.counted⟩

/-- The registrations of a feasible build are aligned to some end. -/
theorem Feasible.outcome_ne_aborted {start barrier : Barrier} {registrations : List Registration}
    (h : Feasible start registrations) (halike : barrier.Alike start) {modules : List Registered}
    (hmodules : ∀ entry ∈ modules, Version.Cuttable entry.2.coordinate.version) :
    barrier.outcome modules ≠ .error .aborted := by
  intro haborted
  rw [outcome] at haborted
  split at haborted
  · rename_i stop hrequest
    cases haborted
    obtain ⟨entry, hentry, hcut⟩ := of_combinedRequest_eq_aborted hrequest
    exact hcut (hmodules entry hentry)
  · rename_i request hrequest
    have houtcome : (barrier.aligner.align request).outcome = .aborted := by
      cases houtcome : (barrier.aligner.align request).outcome with
      | aborted => rfl
      | failed error =>
        rw [houtcome] at haborted
        cases haborted
      | skipped alignment =>
        rw [houtcome, finish] at haborted
        cases hresponse : barrier.stageResponse modules alignment.request alignment.response true
            <;> rw [hresponse] at haborted <;> cases haborted
      | aligned alignment =>
        rw [houtcome, finish] at haborted
        cases hresponse : barrier.stageResponse modules alignment.request
            (barrier.pinSeeded modules alignment) false
            <;> rw [hresponse] at haborted <;> cases haborted
    obtain ⟨settings, hmem, raw, hnone, hraw⟩ := Aligner.of_align_eq_aborted houtcome
    rw [halike.aligner] at hmem hraw
    have hinput : Version.Cuttable (raw.getD request.projectVersion) := by
      cases raw with
      | some version =>
        obtain ⟨ask, hask, asked, versions, hanswer, entry, hentry, rfl⟩ := hraw version rfl
        exact h.answered ask hask asked versions hanswer entry hentry
      | none =>
        obtain ⟨-, hversion, -⟩ := of_combinedRequest_eq_ok hrequest
        obtain ⟨entry, hentry, hdeclared⟩ :=
          List.mem_map.1 (List.mem_of_find?_eq_some hversion)
        rw [Option.getD_none, ← hdeclared]
        exact hmodules entry hentry
    have hsome : (settings.compute? raw request.projectVersion).isSome = true :=
      ProjectVersionSettings.isSome_compute?_iff.2 fun henabled hoverride =>
        ⟨hinput, h.counted settings hmem henabled hoverride⟩
    rw [hnone] at hsome
    cases hsome

/-! ### Between two calls -/

/-- What holds of a barrier that no call is changing. -/
structure Resting (start barrier : Barrier) : Prop where
  alike : barrier.Alike start
  stored : ∀ entry ∈ barrier.registered, Version.Cuttable entry.2.coordinate.version
  waits : barrier.phase = .collecting → barrier.remaining ≠ []
  idle : barrier.phase ≠ .aligning
  fails : ∀ error, barrier.phase = .failed error → error.FailsBuild

theorem Opened.resting {tree : ModuleTree} {aligner : Aligner} {policy : BarrierPolicy}
    {barrier : Barrier} (opened : Opened tree aligner policy barrier) :
    Resting barrier barrier := by
  have hphase : barrier.phase = .collecting := by rw [opened.eq]
  have hregistered : barrier.registered = [] := by rw [opened.eq]
  refine ⟨.refl barrier, ?_, ?_, ?_, ?_⟩
  · rw [hregistered]
    simp
  · intro _
    obtain ⟨rest, hpaths⟩ := tree.paths_eq_cons
    rw [opened.eq, hpaths, List.eraseDups_cons]
    exact List.cons_ne_nil _ _
  · rw [hphase]
    simp
  · rw [hphase]
    simp

/-- The phase and the answer that a call of a feasible build leads to. -/
structure Progresses (before next : Barrier) (status : Except Stop RegistrationStatus) : Prop where
  finished : status ≠ .error .aborted
  /-- Only a complete build is told to have been aligned before. -/
  late : status = .error (.failed .alreadyPerformed) → ∃ handle, before.phase = .completed handle
  /-- Whoever completes the build is told so. -/
  completes : ∀ handle, next.phase = .completed handle →
    (∃ handle, before.phase = .completed handle) ∨ ∃ handle, status = .ok (.complete handle)

namespace Resting

variable {start barrier : Barrier} {registration : Registration}

/-- What is stored of a registration has its version. -/
theorem cuttable_of_store (h : Resting start barrier) {path : String} {admitted : Registration}
    (admits : barrier.Admits path registration (.ok admitted))
    (hcut : Version.Cuttable registration.coordinate.version) :
    ∀ entry ∈ (barrier.store path admitted).registered,
      Version.Cuttable entry.2.coordinate.version := by
  intro entry hentry
  rcases List.mem_append.1 hentry with hold | hnew
  · exact h.stored entry hold
  · obtain ⟨-, hadmitted⟩ := of_admitted_eq_ok admits.result
    rw [List.mem_singleton.1 hnew, hadmitted]
    exact hcut

/-- Where the last registration comes in, the alignment ends and the barrier rests again. -/
theorem last (h : Resting start barrier) {registrations : List Registration}
    (feasible : Feasible start registrations)
    (hcut : Version.Cuttable registration.coordinate.version) {path : String}
    {admitted : Registration} (admits : barrier.Admits path registration (.ok admitted))
    {next : Barrier} {status : Except Stop RegistrationStatus}
    (finishes : Finishes { barrier.store path admitted with phase := .aligning } next status) :
    Resting start next ∧ Progresses barrier next status := by
  have hstored := h.cuttable_of_store admits hcut
  have hstore : ({ barrier.store path admitted with phase := .aligning } : Barrier).Alike barrier :=
    ⟨rfl, rfl, rfl, rfl⟩
  have halike := hstore.trans h.alike
  have halikeNext := finishes.alike.trans halike
  cases finishes with
  | completed outcome =>
    refine ⟨⟨halikeNext, hstored, by simp, by simp, by simp⟩, ?_⟩
    exact ⟨by simp, by simp, fun _ _ => .inr ⟨_, rfl⟩⟩
  | failed outcome =>
    have hfails := failsBuild_of_outcome outcome
    refine ⟨⟨halikeNext, hstored, by simp, by simp, ?_⟩, ?_⟩
    · intro error hphase
      rw [← Phase.failed.inj hphase, hfails.restate_eq]
      exact hfails
    · refine ⟨by simp, ?_, by simp⟩
      intro heq
      cases heq
      exact absurd rfl hfails.ne_alreadyPerformed
  | aborted outcome =>
    refine absurd outcome (feasible.outcome_ne_aborted halike ?_)
    intro entry hentry
    exact hstored entry (mem_registered_of_mem_inOrder hentry)

theorem step (h : Resting start barrier) {registrations : List Registration}
    (feasible : Feasible start registrations) (hmem : registration ∈ registrations)
    {next : Barrier} {status : Except Stop RegistrationStatus}
    (called : Calls barrier registration next status) :
    Resting start next ∧ Progresses barrier next status := by
  have hcut := feasible.registered registration hmem
  have halike := called.alike.trans h.alike
  cases called with
  | unknown lookup =>
    refine ⟨h, by simp, ?_, fun handle hphase => .inl ⟨handle, hphase⟩⟩
    intro heq
    cases heq
    exact absurd rfl (ModuleTree.failsBuild_of_resolve lookup).ne_alreadyPerformed
  | refused lookup refuses =>
    refine ⟨h, by simp, ?_, fun handle hphase => .inl ⟨handle, hphase⟩⟩
    intro heq
    cases refuses with
    | failed phase =>
      have hfails := h.fails _ phase
      rw [hfails.restate_eq] at heq
      cases heq
      exact absurd rfl hfails.ne_alreadyPerformed
    | aligning phase => exact absurd phase h.idle
    | completed phase => exact ⟨_, phase⟩
    | duplicate phase there => cases heq
  | rejected lookup admits =>
    have hfails := failsBuild_of_admitted admits.result
    refine ⟨⟨halike, h.stored, by simp, by simp, ?_⟩, ?_⟩
    · intro error hphase
      rw [← Phase.failed.inj hphase, hfails.restate_eq]
      exact hfails
    · refine ⟨by simp, ?_, by simp⟩
      intro heq
      cases heq
      exact absurd rfl hfails.ne_alreadyPerformed
  | waiting lookup admits others =>
    have hphase : ∀ path admitted, (barrier.store path admitted).phase = .collecting :=
      fun _ _ => admits.phase
    refine ⟨⟨halike, h.cuttable_of_store admits hcut, fun _ => others, ?_, ?_⟩, by simp, by simp,
      ?_⟩
    · rw [hphase]
      simp
    · rw [hphase]
      simp
    · rw [hphase]
      simp
  | last lookup admits none finishes => exact h.last feasible hcut admits finishes

/-- What a sequence of calls leaves behind, and how its answers follow each other. -/
theorem registerAll (h : Resting start barrier) {registrations : List Registration}
    (feasible : Feasible start registrations) {calls : List Registration}
    (hcalls : ∀ registration ∈ calls, registration ∈ registrations) :
    Resting start (barrier.registerAll calls).1 ∧
      (∀ status ∈ (barrier.registerAll calls).2, status ≠ .error .aborted) ∧
      ∀ earlier later, (barrier.registerAll calls).2
          = earlier ++ .error (.failed .alreadyPerformed) :: later →
        (∃ handle, barrier.phase = .completed handle) ∨
          ∃ handle, .ok (.complete handle) ∈ earlier := by
  induction calls generalizing barrier with
  | nil => exact ⟨h, by simp [Barrier.registerAll], by simp [Barrier.registerAll]⟩
  | cons registration rest ih =>
    obtain ⟨hnext, hstatus⟩ :=
      h.step feasible (hcalls registration List.mem_cons_self) (barrier.calls registration)
    obtain ⟨hfinal, hanswers, hlate⟩ :=
      ih hnext fun other hother => hcalls other (List.mem_cons_of_mem _ hother)
    rw [registerAll_cons (Prod.eta _).symm]
    refine ⟨hfinal, ?_, ?_⟩
    · intro status hmem
      rcases List.mem_cons.1 hmem with rfl | hrest
      · exact hstatus.finished
      · exact hanswers status hrest
    · intro earlier later hsplit
      cases earlier with
      | nil =>
        rw [List.nil_append, List.cons.injEq] at hsplit
        exact .inl (hstatus.late hsplit.1)
      | cons first earlier =>
        rw [List.cons_append, List.cons.injEq] at hsplit
        -- This call has completed the build, or one before it, or one behind it.
        rcases hlate earlier later hsplit.2 with ⟨handle, hcompleted⟩ | ⟨handle, hcomplete⟩
        · rcases hstatus.completes handle hcompleted with hbefore | ⟨made, hmade⟩
          · exact .inl hbefore
          · refine .inr ⟨made, ?_⟩
            rw [← hsplit.1, hmade]
            exact List.mem_cons_self
        · exact .inr ⟨handle, List.mem_cons_of_mem _ hcomplete⟩

/-- A barrier at rest that waits for nobody has completed or failed. -/
theorem final (h : Resting start barrier) (hremaining : barrier.remaining = []) :
    barrier.phase.Final := by
  cases hphase : barrier.phase with
  | collecting => exact absurd hremaining (h.waits hphase)
  | aligning => exact absurd hphase h.idle
  | completed handle => trivial
  | failed error => trivial

/-- Nobody is told to wait for nobody. -/
theorem finishedHandle_ne (h : Resting start barrier) :
    barrier.finishedHandle ≠ .error (.pending 0) := by
  rw [finishedHandle]
  cases hphase : barrier.phase with
  | collecting =>
    intro heq
    cases hremaining : barrier.remaining with
    | nil => exact h.waits hphase hremaining
    | cons path rest =>
      rw [hremaining] at heq
      cases heq
  | aligning => exact absurd hphase h.idle
  | completed handle => simp
  | failed error =>
    have hfails := h.fails error hphase
    simp only [hfails.restate_eq]
    intro heq
    cases heq
    cases hfails

end Resting

/-! ### Sequences of calls -/

/-- What calls that came one after another have left of a barrier, and their answers. -/
structure Unstuck (results : Barrier × List (Except Stop RegistrationStatus)) : Prop where
  /-- Every call has an answer. -/
  answers : ∀ status ∈ results.2, status ≠ .error .aborted
  final : results.1.remaining = [] → results.1.phase.Final
  /-- A call is told that the build has been aligned only after a call that completed it. -/
  late : ∀ earlier later, results.2 = earlier ++ .error (.failed .alreadyPerformed) :: later →
    ∃ handle, .ok (.complete handle) ∈ earlier
  finishedHandle : results.1.finishedHandle ≠ .error (.pending 0)
  finishedModel : results.1.finishedModel ≠ .error (.pending 0)

/-- However many calls have come one after another, for whatever modules and with whatever
dependencies, the barrier is not stuck, if all that has to be cut and counted on the way can be. -/
theorem unstuck_registerAll {tree : ModuleTree} {aligner : Aligner} {policy : BarrierPolicy}
    {barrier : Barrier} (opened : Opened tree aligner policy barrier)
    {registrations : List Registration} (feasible : Feasible barrier registrations) :
    Unstuck (barrier.registerAll registrations) := by
  obtain ⟨hrests, hanswers, hlate⟩ := opened.resting.registerAll feasible fun _ hmem => hmem
  refine ⟨hanswers, hrests.final, ?_, hrests.finishedHandle_ne, ?_⟩
  · intro earlier later hsplit
    rcases hlate earlier later hsplit with ⟨handle, hphase⟩ | hcomplete
    · rw [opened.eq] at hphase
      cases hphase
    · exact hcomplete
  · intro hmodel
    refine hrests.finishedHandle_ne ?_
    rw [Barrier.finishedModel] at hmodel
    cases hhandle : (barrier.registerAll registrations).1.finishedHandle with
    | error error =>
      rw [hhandle] at hmodel
      cases hmodel
      rfl
    | ok handle =>
      rw [hhandle] at hmodel
      cases hmodel

/-- The authority, the previous version and the registered ones can all be cut, so the second
registration completes the build and the third one is late. -/
theorem unstuck_of_late_call :
    let aligner : Aligner := { SmallBuild.aligner with
      adjustments := [.projectVersion { previousVersion := some "2.0-redhat-00004" }] }
    let barrier : Barrier := { SmallBuild.barrier with aligner }
    let registrations : List Registration :=
      [⟨":core", ⟨"org.example", "core", "1.0é-SNAPSHOT"⟩, []⟩, registrationOf ":" "app" [],
        registrationOf ":" "app" []]
    Opened SmallBuild.tree aligner {} barrier ∧ Feasible barrier registrations ∧
      (barrier.registerAll registrations).2
        = [.ok (.pending 1), .ok (.complete ⟨"2.0-redhat-00005", false, []⟩),
          .error (.failed .alreadyPerformed)] ∧
      Unstuck (barrier.registerAll registrations) := by
  intro aligner barrier registrations
  have opened : Opened SmallBuild.tree aligner {} barrier := .new rfl
  have feasible : Feasible barrier registrations := by
    refine ⟨by decide, ?_, ?_⟩
    · intro ask hask asked versions hanswer entry hentry
      cases hask
      cases hanswer
      obtain ⟨coordinate, -, rfl⟩ := List.mem_map.1 hentry
      exact (show Version.Cuttable "2.0" by decide)
    · intro settings hmem _ _
      cases List.mem_singleton.1 hmem
      exact ⟨by decide, by decide⟩
  exact ⟨opened, feasible, by decide +kernel, unstuck_registerAll opened feasible⟩

/-- The version of the application takes nine bytes, and the first of its characters two. When its
module comes last, the barrier waits for nobody and still says that it does, and everyone who comes
later is told that the build has been aligned. -/
theorem stuck_on_wide_character :
    let results := SmallBuild.barrier.registerAll [registrationOf ":core" "core" [],
      ⟨":", ⟨"org.example", "app", "éaaaaaaa"⟩, []⟩, registrationOf ":core" "core" []]
    Opened SmallBuild.tree SmallBuild.aligner {} SmallBuild.barrier ∧
      results.2 = [.ok (.pending 1), .error .aborted, .error (.failed .alreadyPerformed)] ∧
      results.1.remaining = [] ∧ ¬ results.1.phase.Final ∧
      results.1.finishedHandle = .error (.pending 0) ∧ ¬ Unstuck results := by
  intro results
  have hhandle : results.1.finishedHandle = .error (.pending 0) := by decide +kernel
  have hphase : results.1.phase = .aligning := by decide +kernel
  refine ⟨SmallBuild.opened, by decide +kernel, by decide +kernel, ?_, hhandle, ?_⟩
  · rw [hphase]
    exact id
  · exact fun unstuck => unstuck.finishedHandle hhandle

end Barrier

end BuildAlignment
