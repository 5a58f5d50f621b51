import CompileFail.Proofs.ReportOrder
import CompileFail.Proofs.ReportTally
import CompileFail.Proofs.RunOutcome
import CompileFail.Proofs.SetUp

/-! How a run ends. A failure of the set-up is told at once and makes for code 2, before anything is checked or
announced, and so is it if the threads for the checks cannot be started. Otherwise, behind a set-up that succeeds,
the code and the summary are those of the report that the units have left, however they took turns. -/

namespace CompileFail

namespace Checks

variable {v : Verifier} {p q : Progress} {file : Path} {index : Nat} {result : Except Fault Verdict}

/-- A unit about to report a finding has it reported with its next step, and nothing reported is taken back. -/
theorem Move.keeps_finding (hmove : Move v p q)
    (h : .settled file index result ∈ p.tasks ∨ Verdict.step file index result ∈ p.session.steps) :
    .settled file index result ∈ q.tasks ∨ Verdict.step file index result ∈ q.session.steps := by
  obtain ⟨hsteps, htasks⟩ := hmove.grows
  rcases h with htask | hreported
  · exact (htasks _ htask).imp id fun hstep => hstep.1 (List.mem_singleton_self _)
  · exact Or.inr (hsteps hreported)

/-- Once a run is done, the findings of its units are reported. -/
theorem Reaches.finding_reported (hreach : Reaches v p q) (hdone : q.Done)
    (h : .settled file index result ∈ p.tasks) : Verdict.step file index result ∈ q.session.steps := by
  have hkept : .settled file index result ∈ q.tasks ∨ Verdict.step file index result ∈ q.session.steps := by
    clear hdone
    induction hreach with
    | refl => exact Or.inl h
    | tail _ hmove ih => exact hmove.keeps_finding ih
  refine hkept.resolve_left ?_
  rw [hdone.2]
  exact List.not_mem_nil

/-- A run that is done and has passed reports no failure and no fault, and none of its units has found any. -/
theorem clean_of_passed {root : Path} (hdone : p.Done) (hpassed : (p.session.report root).outcome = .passed) :
    (p.session.report root).counts.failed = 0 ∧ (¬∃ fault, .technical fault ∈ p.session.steps) ∧
      ∀ q, Reaches v q p → ∀ file index finding, .settled file index finding ∈ q.tasks → Harmless finding := by
  obtain ⟨hfailure, htechnical⟩ := (Report.outcome_start_eq_passed_iff _ _).mp hpassed
  refine ⟨?_, htechnical, fun q hreach file index finding hsettled => ?_⟩
  · have hnone : p.session.steps.countP Report.Step.isFailure = 0 :=
      List.countP_eq_zero.mpr fun step hstep => by simp [hfailure step hstep]
    rw [Session.report, Report.failed_addAll, hnone]
    rfl
  · have hreported := hreach.finding_reported hdone hsettled
    rw [← outcome_verdictStep_eq_passed_iff, Report.Step.outcome_eq_passed_iff]
    exact ⟨hfailure _ hreported, fun fault hfault => htechnical ⟨fault, hfault ▸ hreported⟩⟩

end Checks

namespace Cli

variable {surroundings : Surroundings} {args : List Text} {arguments : Arguments} {settings : Settings}
  {tree : FileTree} {s : Session} {fault : Fault} {plan : Plan}

/-! ### The two ways to an end -/

section Ends

variable (hread : Arguments.read args = .ok arguments)

include hread

theorem carryOut_of_settingsFor_error {chain : List Text} (h : settingsFor arguments tree = .error chain) :
    carryOut surroundings args tree = .aborted chain ⟨tree, []⟩ := by
  simp only [carryOut, hread, h]

variable (hloaded : settingsFor arguments tree = .ok settings)

include hloaded

theorem carryOut_of_prepare_error (h : prepare surroundings settings arguments ⟨tree, []⟩ = (.error fault, s)) :
    carryOut surroundings args tree = .aborted fault.chain s := by
  have hcheck : check surroundings settings arguments ⟨tree, []⟩ = (.error fault, s) := by
    rw [check, Act.bind_apply, h]
  simp only [carryOut, hread, hloaded]
  rw [ExceptT.run, StateT.run, hcheck]

variable (hprepare : prepare surroundings settings arguments ⟨tree, []⟩ = (.ok plan, s))

include hprepare

theorem carryOut_of_threads_some {cause : OsError} (h : surroundings.threads plan.workers = some cause) :
    carryOut surroundings args tree = .aborted (Fault.threadPool cause).chain s := by
  have hcheck : check surroundings settings arguments ⟨tree, []⟩ = (.error (.threadPool cause), s) := by
    rw [check, Act.bind_apply, hprepare]
    simp only [Checks.run, h]
    rfl
  simp only [carryOut, hread, hloaded]
  rw [ExceptT.run, StateT.run, hcheck]

theorem carryOut_of_threads_none (h : surroundings.threads plan.workers = none) :
    carryOut surroundings args tree = .checked plan.titleRoot arguments.format
      (Checks.perform plan.verifier plan.files plan.workers s).2 := by
  have hcheck : check surroundings settings arguments ⟨tree, []⟩ =
      (.ok plan.titleRoot, (Checks.perform plan.verifier plan.files plan.workers s).2) := by
    rw [check, Act.bind_apply, hprepare]
    simp only [Checks.run, h]
    rfl
  simp only [carryOut, hread, hloaded]
  rw [ExceptT.run, StateT.run, hcheck]

end Ends

/-- What is shown of a run whose lines were checked. -/
theorem result_checked (display : Display) (root : Path) (format : Summary.Format) (s : Session) :
    let result := (Finish.checked root format s).result display
    let report := s.report root
    let summary : Summary := ⟨report.outcome, report.counts, display.elapsed.seconds⟩
    result.exitCode = report.outcome.exitCode ∧
      result.stdout = report.out.flatten ++ summary.render format display.summaryInColour ++ ['\n'] ++
        display.closing := by
  refine ⟨rfl, ?_⟩
  simp [Finish.result, Report.add, Summary.ofReport]

/-! ### The end of a run -/

/-- The session that the set-up leaves. -/
theorem exists_prepare_apply (surroundings : Surroundings) (hloaded : settingsFor arguments tree = .ok settings) :
    ∃ result s, prepare surroundings settings arguments ⟨tree, []⟩ = (result, s) ∧
      (∀ event ∈ s.events, event.isOfChecks = false) ∧
      Program.LeadsTouching surroundings.runner tree s.tree ∧
      (¬FullyBuilt surroundings arguments tree →
        (∀ file, .touched file ∉ s.events) ∧ Program.Leads surroundings.runner tree s.tree) ∧
      ∀ plan, result = .ok plan → ∃ found captured recipe files,
        Prepared surroundings arguments tree settings found captured recipe files s.tree := by
  obtain ⟨result, after, deeds, hprepare, hdeeds, htouching, hunbuilt, hprepared⟩ :=
    ends_prepare surroundings hloaded
  obtain ⟨events, hrun, rfl⟩ := hprepare.run ⟨tree, []⟩ rfl
  refine ⟨result, _, hrun, Event.forall_isOfChecks_eq_false hdeeds, htouching, fun h => ?_, hprepared⟩
  obtain ⟨-, huntouched, hleads⟩ := hunbuilt h
  exact ⟨fun file hfile => huntouched file (List.mem_filter.mpr ⟨hfile, rfl⟩), hleads⟩

/-- All steps of the set-up succeed, whatever they come to. -/
def SetUpSucceeds (surroundings : Surroundings) (arguments : Arguments) (tree : FileTree) : Prop :=
  ∃ settings found captured recipe files built,
    Prepared surroundings arguments tree settings found captured recipe files built

/-- A run that is given up, with what it has done to the record and to the files. -/
theorem exists_aborted (hread : Arguments.read args = .ok arguments)
    (h : ¬SetUpSucceeds surroundings arguments tree) :
    ∃ chain s, carryOut surroundings args tree = .aborted chain s ∧
      (∀ event ∈ s.events, event.isOfChecks = false) ∧
      Program.LeadsTouching surroundings.runner tree s.tree ∧
      (¬FullyBuilt surroundings arguments tree →
        (∀ file, .touched file ∉ s.events) ∧ Program.Leads surroundings.runner tree s.tree) := by
  cases hloaded : settingsFor arguments tree with
  | error chain =>
      have hstays : Program.Leads surroundings.runner tree tree := Relation.ReflTransGen.refl
      exact ⟨chain, _, carryOut_of_settingsFor_error hread hloaded, by simp, Or.inl hstays,
        fun _ => ⟨by simp, hstays⟩⟩
  | ok settings =>
      obtain ⟨fault | plan, s, hprepare, hevents, htouching, hunbuilt, hprepared⟩ :=
        exists_prepare_apply surroundings hloaded
      · exact ⟨_, s, carryOut_of_prepare_error hread hloaded hprepare, hevents, htouching, hunbuilt⟩
      · obtain ⟨found, captured, recipe, files, hprepared⟩ := hprepared plan rfl
        exact absurd ⟨settings, found, captured, recipe, files, s.tree, hprepared⟩ h

/-- The session that a set-up leaves all of whose steps succeed. -/
theorem exists_prepare_apply_ok {found : Survey} {captured built : FileTree} {recipe : Recipe} {files : List Path}
    (h : Prepared surroundings arguments tree settings found captured recipe files built) :
    ∃ s, prepare surroundings settings arguments ⟨tree, []⟩ = (.ok (found.plan surroundings settings recipe files), s) ∧
      s.tree = built ∧ ∀ event ∈ s.events, event.isOfChecks = false := by
  obtain ⟨result, s, hprepare, hevents, -⟩ := exists_prepare_apply surroundings h.loaded
  obtain ⟨deeds, hdoes⟩ := does_prepare h
  have hresult := hdoes.result_eq (s := ⟨tree, []⟩) rfl
  have htree := hdoes.tree_eq (s := ⟨tree, []⟩) rfl
  rw [hprepare] at hresult htree
  subst hresult
  exact ⟨s, hprepare, htree, hevents⟩

/-- If a step of the set-up fails, the code is 2, nothing but the closing lines is printed, and no line is
checked or announced; without a full build that succeeds, the files are left to the programs that were run. If all
steps succeed but the threads cannot be started, the run ends in the same way. If they can, the code and the summary
are those of the report of units that are all done, and the code is 0 only if no unit has found a failure or met a
technical fault. -/
theorem exitCode_of_carryOut (surroundings : Surroundings) (args : List Text) (tree : FileTree)
    (display : Display) {arguments : Arguments} (hread : Arguments.read args = .ok arguments) :
    let finish := carryOut surroundings args tree
    (¬SetUpSucceeds surroundings arguments tree → ∃ chain s, finish = .aborted chain s ∧
      (finish.result display).exitCode = 2 ∧ (finish.result display).stdout = display.closing ∧
      (∀ event ∈ s.events, event.isOfChecks = false) ∧
      Program.LeadsTouching surroundings.runner tree s.tree) ∧
    (¬FullyBuilt surroundings arguments tree → ∃ chain s, finish = .aborted chain s ∧
      (∀ file, .touched file ∉ s.events) ∧ Program.Leads surroundings.runner tree s.tree) ∧
    ∀ settings found captured recipe files built,
      Prepared surroundings arguments tree settings found captured recipe files built →
      let plan := found.plan surroundings settings recipe files
      let Ended (s : Session) (p : Checks.Progress) : Prop :=
        Checks.Reaches plan.verifier (Checks.start plan.files plan.workers s) p ∧ p.Done
      (∀ cause, surroundings.threads plan.workers = some cause →
        ∃ s, s.tree = built ∧ finish = .aborted (Fault.threadPool cause).chain s ∧
          (finish.result display).exitCode = 2 ∧ (finish.result display).stdout = display.closing ∧
          ∀ event ∈ s.events, event.isOfChecks = false) ∧
      (surroundings.threads plan.workers = none → ∃ s, s.tree = built ∧ s.steps = [] ∧
        (∃ p, Ended s p ∧ finish = .checked plan.titleRoot arguments.format p.session) ∧
        ∀ p, Ended s p →
          let result := (Finish.checked plan.titleRoot arguments.format p.session).result display
          let report := p.session.report plan.titleRoot
          let summary : Summary := ⟨report.outcome, report.counts, display.elapsed.seconds⟩
          result.exitCode = report.outcome.exitCode ∧
          result.stdout = report.out.flatten ++ summary.render arguments.format display.summaryInColour ++
            ['\n'] ++ display.closing ∧
          (result.exitCode = 0 → report.counts.failed = 0 ∧ (¬∃ fault, .technical fault ∈ p.session.steps) ∧
            ∀ q, Checks.Reaches plan.verifier q p → ∀ file index finding,
              .settled file index finding ∈ q.tasks → Checks.Harmless finding)) := by
  intro finish
  refine ⟨fun h => ?_, fun h => ?_, ?_⟩
  · obtain ⟨chain, s, hfinish, hevents, htouching, -⟩ := exists_aborted hread h
    have hresult : finish.result display = (Finish.aborted chain s).result display := congrArg _ hfinish
    exact ⟨chain, s, hfinish, by rw [hresult]; rfl, by rw [hresult]; rfl, hevents, htouching⟩
  · have hfails : ¬SetUpSucceeds surroundings arguments tree := by
      rintro ⟨settings, found, captured, recipe, files, built, hprepared⟩
      exact h hprepared.fullyBuilt
    obtain ⟨chain, s, hfinish, -, -, hunbuilt⟩ := exists_aborted hread hfails
    exact ⟨chain, s, hfinish, hunbuilt h⟩
  · intro settings found captured recipe files built hprepared plan Ended
    obtain ⟨s, hprepare, htree, hevents⟩ := exists_prepare_apply_ok hprepared
    refine ⟨fun cause hthreads => ?_, fun hthreads => ?_⟩
    · have hfinish : finish = .aborted (Fault.threadPool cause).chain s :=
        carryOut_of_threads_some hread hprepared.loaded hprepare hthreads
      have hresult : finish.result display = (Finish.aborted _ s).result display := congrArg _ hfinish
      exact ⟨s, htree, hfinish, by rw [hresult]; rfl, by rw [hresult]; rfl, hevents⟩
    · have hfinish := carryOut_of_threads_none hread hprepared.loaded hprepare hthreads
      refine ⟨s, htree, Session.steps_eq_nil hevents,
        ⟨⟨[], [], _⟩, ⟨Checks.reaches_perform _ _, rfl, rfl⟩, hfinish⟩, ?_⟩
      rintro p ⟨hreach, hdone⟩
      intro result report summary
      obtain ⟨hcode, hstdout⟩ := result_checked display plan.titleRoot arguments.format p.session
      exact ⟨hcode, hstdout, fun hzero =>
        Checks.clean_of_passed hdone (Outcome.exitCode_eq_zero_iff.mp (hcode.symm.trans hzero))⟩

/-- Too few workers are a failure of the set-up; the same target is checked by the default number of them. -/
theorem exitCode_of_carryOut_workers :
    let tree := FileTree.ofEntries [(["d"], .dir), (["d", "a.sln"], .file (.text []) false 0),
      (["d", "b.vcxproj"], .file (.text []) false 0),
      (["d", "c.cpp"], .file (.text "// f(); // [CompilationError]: no f") false 0)]
    let diagnostic : Text := "c.checkce-1.cpp\n/d/c.checkce-1.cpp(1): error C3861: no f here\n"
    let runner : Program.Runner := fun command tree =>
      (.ok (if command.program = ("C:\\CL.exe" : Text) then ⟨false, some 2, diagnostic, []⟩
        else ⟨true, some 0, "C:\\CL.exe /c c.cpp\r\n", []⟩), tree)
    let display : Display := { elapsed := ⟨0⟩, time := [] }
    ((carryOut { env := .empty, runner := runner } ["/d", "Debug", "0"] tree).result display).exitCode = 2 ∧
      SetUpSucceeds { env := .empty, runner := runner } { path := "/d" } tree ∧
      ∃ root s, carryOut { env := .empty, runner := runner } ["/d"] tree = .checked root .text s ∧
        (s.report root).counts.failed = 0 := by
  intro tree diagnostic runner display
  have hread : Arguments.read ["/d", "Debug", "0"] = .ok { path := "/d", workers := "0" } := by decide
  have hread' : Arguments.read ["/d"] = .ok { path := "/d" } := by decide
  have hfails : ¬SetUpSucceeds { env := .empty, runner := runner } { path := "/d", workers := "0" } tree := by
    rintro ⟨settings, found, captured, recipe, files, built, h⟩
    cases h.counted
  have hzero : ((carryOut { env := .empty, runner := runner } ["/d"] tree).result display).exitCode = 0 := by
    decide +kernel
  obtain ⟨habandoned, -, -⟩ :=
    exitCode_of_carryOut { env := .empty, runner := runner } ["/d", "Debug", "0"] tree display hread
  obtain ⟨habandoned', -, hchecked⟩ :=
    exitCode_of_carryOut { env := .empty, runner := runner } ["/d"] tree display hread'
  obtain ⟨_, _, -, htwo, -⟩ := habandoned hfails
  have hsucceeds : SetUpSucceeds { env := .empty, runner := runner } { path := "/d" } tree := by
    by_contra hnot
    obtain ⟨_, _, -, htwo, -⟩ := habandoned' hnot
    cases hzero.symm.trans htwo
  obtain ⟨settings, found, captured, recipe, files, built, h⟩ := id hsucceeds
  obtain ⟨-, hstarted⟩ := hchecked settings found captured recipe files built h
  obtain ⟨s, -, -, ⟨p, hended, hfinish⟩, hall⟩ := hstarted rfl
  obtain ⟨-, -, hclean⟩ := hall p hended
  rw [hfinish] at hzero
  exact ⟨htwo, hsucceeds, _, p.session, hfinish, (hclean hzero).1⟩

/-- Behind a complete set-up the run still ends with code 2 and without a summary if no thread can be started. -/
theorem aborted_behind_set_up :
    let file : Entry := .file (.text []) false 0
    let tree := FileTree.ofEntries [(["d"], .dir), (["d", "a.sln"], file), (["d", "b.vcxproj"], file),
      (["d", "c.cpp"], file)]
    let surroundings : Surroundings :=
      { env := .empty
        runner := fun _ tree => (.ok ⟨true, some 0, "C:\\CL.exe /c c.cpp\r\n", []⟩, tree)
        threads := fun _ => some .exhausted }
    let display : Display := { elapsed := ⟨0⟩, time := [] }
    let result := (carryOut surroundings ["/d"] tree).result display
    SetUpSucceeds surroundings { path := "/d" } tree ∧ result.exitCode = 2 ∧ result.stdout = display.closing := by
  intro file tree surroundings display result
  refine ⟨?_, by decide +kernel, by decide +kernel⟩
  have hloaded : settingsFor { path := "/d" } tree = .ok {} := rfl
  have hprepared : (prepare surroundings {} { path := "/d" } ⟨tree, []⟩).1.isOk = true := by decide +kernel
  obtain ⟨fault | plan, s, hprepare, -, -, -, hall⟩ := exists_prepare_apply surroundings hloaded
  · rw [hprepare] at hprepared
    cases hprepared
  · obtain ⟨found, captured, recipe, files, h⟩ := hall plan rfl
    exact ⟨{}, found, captured, recipe, files, s.tree, h⟩

end Cli

end CompileFail
