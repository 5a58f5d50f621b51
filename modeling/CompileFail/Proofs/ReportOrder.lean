import CompileFail.Proofs.Interleaving
import CompileFail.Proofs.ReportSteps

/-! The order of the report in a run whose units are done side by side. A unit reports when it announces
its file and when it is through, and at no other step. So no failure is reported of a file that has not
been announced before. -/

namespace CompileFail.Checks

variable {v : Verifier} {s : Session}

namespace Task

/-- The file that a unit is about. -/
def file : Task → Path
  | .due (.announce file) | .due (.verify file _ _) | .announced file _ _ | .copied file _ _ _
  | .compiled file _ _ _ | .settled file _ _ => file

def isDue : Task → Bool
  | .due _ => true
  | _ => false

/-- What the next step of a unit reports. -/
def reports : Task → List Report.Step
  | .due (.announce file) | .due (.verify file _ _) => [.announce file]
  | .settled file index result => [Verdict.step file index result]
  | _ => []

theorem reports_of_due {task : Task} (h : task.isDue = true) : task.reports = [.announce task.file] := by
  cases task with
  | due work => cases work <;> rfl
  | _ => cases h

/-- A unit reports a failure of its own file alone, and not before it has announced it. -/
theorem reports_cases (task : Task) : task.reports = [] ∨ ∃ step, task.reports = [step] ∧
    ∀ file index lines, step = .failure file index lines → task.isDue = false ∧ file = task.file := by
  cases task with
  | due work => cases work <;> exact Or.inr ⟨_, rfl, by rintro file index lines ⟨⟩⟩
  | settled file index result =>
      refine Or.inr ⟨_, rfl, fun file' index' lines hstep => ⟨rfl, ?_⟩⟩
      rcases result with fault | verdict
      · cases hstep
      · cases verdict <;> cases hstep
        rfl
  | _ => exact Or.inl rfl

theorem steps_writeCopy (copy : Path) (content : Text) (s : Session) :
    (Verifier.writeCopy copy content s).2.steps = s.steps := by
  cases hwrite : s.tree.write copy content with
  | error e => rw [Verifier.writeCopy_of_error hwrite]
  | ok tree =>
      rw [Verifier.writeCopy_of_ok hwrite, Session.steps_addAll]
      exact List.append_nil _

theorem steps_removeCopy (copy : Path) (s : Session) : (Verifier.removeCopy copy s).steps = s.steps := by
  cases hremove : s.tree.remove copy with
  | error e =>
      obtain ⟨note, hnote, hremoved⟩ := Verifier.exists_removeCopy_of_error copy
      rw [hremoved s e hremove, Session.steps_addAll, hnote, List.append_nil]
  | ok tree =>
      rw [Verifier.removeCopy_of_ok hremove, Session.steps_addAll]
      exact List.append_nil _

theorem steps_compileCopy (file : Path) (index : Nat) (expected : Text) (s : Session) :
    (compileCopy v file index expected s).2.steps = s.steps := by
  obtain ⟨note, hnote, hcompile⟩ := Verifier.exists_compile_bind_eq (copyPath file index v.toolName)
  rw [compileCopy, hcompile, Session.steps_addAll, Event.steps_compiled, hnote]
  exact List.append_nil _

theorem steps_step (task : Task) (s : Session) : (task.step v s).2.steps = s.steps ++ task.reports := by
  cases task with
  | due work => cases work <;> exact Session.steps_addAll s [.reported (.announce _)]
  | announced file lines index =>
      refine Eq.trans ?_ (List.append_nil _).symm
      cases happlicable : v.applicable? lines index with
      | none =>
          obtain ⟨result, events, hsteps, hverify⟩ := verifyLine_of_not_applicable happlicable file
          simp only [step, happlicable, hverify, Session.steps_addAll, hsteps, List.append_nil]
      | some o =>
          have hwrote := steps_writeCopy (copyPath file index v.toolName) (Tag.activate lines index o) s
          simp only [step, happlicable]
          split
          all_goals
            next s' hwrite =>
              rw [hwrite] at hwrote
              exact hwrote
  | copied file index o content =>
      refine Eq.trans ?_ (List.append_nil _).symm
      exact steps_compileCopy file index o.expected s
  | compiled file index content result =>
      refine Eq.trans ?_ (List.append_nil _).symm
      exact steps_removeCopy _ s
  | settled file index result => exact Session.steps_addAll s [.reported (Verdict.step file index result)]

/-- A unit stays with its file, and it is due only at its start. -/
theorem LeadsTo.file_eq {task next : Task} (h : task.LeadsTo next) : next.file = task.file ∧ next.isDue = false := by
  cases h <;> exact ⟨rfl, rfl⟩

end Task

/-- Nothing that is reported is taken back, and no unit but the one that takes the step changes. -/
theorem Move.grows {p q : Progress} (hmove : Move v p q) : p.session.steps ⊆ q.session.steps ∧
    ∀ task ∈ p.tasks, task ∈ q.tasks ∨
      task.reports ⊆ q.session.steps ∧ ∀ next ∈ (task.step v p.session).1, next ∈ q.tasks := by
  cases hmove with
  | read file unread tasks s =>
      rw [submit_eq, Session.steps_addAll]
      exact ⟨List.subset_append_left _ _, fun task htask => Or.inl (List.mem_append_left _ htask)⟩
  | advance unread before task after s =>
      rw [Task.steps_step]
      refine ⟨List.subset_append_left _ _, fun other hother => ?_⟩
      rcases List.mem_append.mp hother with hbefore | hother
      · exact Or.inl (List.mem_append_left _ (List.mem_append_left _ hbefore))
      · rcases List.mem_cons.mp hother with rfl | hafter
        · refine Or.inr ⟨List.subset_append_right _ _, fun next hnext => ?_⟩
          exact List.mem_append_left _ (List.mem_append_right _ (Option.mem_toList.mpr hnext))
        · exact Or.inl (List.mem_append_right _ hafter)

/-- Each failure stands behind the announcement of its file. -/
def AnnouncedFirst (steps : List Report.Step) : Prop :=
  ∀ before file index lines after, steps = before ++ .failure file index lines :: after →
    .announce file ∈ before

theorem AnnouncedFirst.append_singleton {steps : List Report.Step} {step : Report.Step}
    (h : AnnouncedFirst steps)
    (hstep : ∀ file index lines, step = .failure file index lines → .announce file ∈ steps) :
    AnnouncedFirst (steps ++ [step]) := by
  intro before file index lines after heq
  rcases List.eq_nil_or_concat after with rfl | ⟨front, last, rfl⟩
  · obtain ⟨rfl, hlast⟩ := List.append_inj' heq rfl
    exact hstep file index lines (List.singleton_inj.mp hlast)
  · rw [List.concat_eq_append, ← List.cons_append, ← List.append_assoc] at heq
    exact h before file index lines front (List.append_inj' heq rfl).1

/-- What holds of the report at all times. -/
structure InOrder (start : List Report.Step) (p : Progress) (added : List Report.Step) : Prop where
  steps : p.session.steps = start ++ added
  announced : ∀ task ∈ p.tasks, task.isDue = false → .announce task.file ∈ added
  first : AnnouncedFirst added

namespace InOrder

variable {reported added : List Report.Step} {unread : List Path} {before after tasks : List Task}
  {task : Task}

theorem read {file : Path} (h : InOrder reported ⟨file :: unread, tasks, s⟩ added) :
    InOrder reported ⟨unread, tasks ++ (submit file s).1.map .due, (submit file s).2⟩
      (added ++ readingSteps s.tree file) := by
  obtain ⟨hsteps, hannounced, hfirst⟩ := h
  rw [submit_eq]
  refine ⟨?_, ?_, ?_⟩
  · rw [Session.steps_addAll, steps_map_reported, ← List.append_assoc]
    exact congrArg (· ++ _) hsteps
  · intro task htask hdue
    rcases List.mem_append.mp htask with hold | hnew
    · exact List.mem_append_left _ (hannounced task hold hdue)
    · obtain ⟨work, -, rfl⟩ := List.mem_map.mp hnew
      cases hdue
  · unfold readingSteps
    split
    · rw [List.append_nil]
      exact hfirst
    · exact hfirst.append_singleton (by rintro file index lines ⟨⟩)

theorem advance (h : InOrder reported ⟨unread, before ++ task :: after, s⟩ added) :
    InOrder reported ⟨unread, before ++ (task.step v s).1.toList ++ after, (task.step v s).2⟩
      (added ++ task.reports) := by
  obtain ⟨hsteps, hannounced, hfirst⟩ := h
  have hself : task ∈ before ++ task :: after := List.mem_append_right _ List.mem_cons_self
  refine ⟨?_, ?_, ?_⟩
  · rw [Task.steps_step, ← List.append_assoc]
    exact congrArg (· ++ _) hsteps
  · intro other hother hdue
    simp only [List.mem_append, Option.mem_toList] at hother
    rcases hother with (hbefore | hnext) | hafter
    · exact List.mem_append_left _ (hannounced other (List.mem_append_left _ hbefore) hdue)
    · obtain ⟨hfile, -⟩ := (Task.leadsTo_of_step (Prod.ext hnext rfl)).file_eq
      rw [hfile]
      cases htask : task.isDue with
      | true =>
          rw [Task.reports_of_due htask]
          exact List.mem_append_right _ (List.mem_singleton_self _)
      | false => exact List.mem_append_left _ (hannounced task hself htask)
    · have hold : other ∈ before ++ task :: after := List.mem_append_right _ (List.mem_cons_of_mem _ hafter)
      exact List.mem_append_left _ (hannounced other hold hdue)
  · rcases task.reports_cases with hnone | ⟨step, hstep, hfailure⟩
    · rw [hnone, List.append_nil]
      exact hfirst
    · rw [hstep]
      refine hfirst.append_singleton fun file index lines heq => ?_
      obtain ⟨hdue, rfl⟩ := hfailure file index lines heq
      exact hannounced task hself hdue

theorem start (files : List Path) (workers : Nat) (s : Session) :
    InOrder s.steps (start files workers s) [] := by
  refine ⟨?_, ?_, ?_⟩
  · exact Session.steps_addAll s [.logged (opening files workers)]
  · rintro task ⟨⟩
  · intro before file index lines after heq
    cases before <;> cases heq

end InOrder

/-- In the report of a run, the lines of a failure stand together on the error stream, and before they were
written its file had been announced. -/
theorem AnnouncedFirst.report {added : List Report.Step} (h : AnnouncedFirst added)
    (reported : List Report.Step)
    (root : Path) {before after : List Report.Step} {file : Path} {index : Nat} {lines : List Report.Line}
    (hadded : added = before ++ .failure file index lines :: after) :
    Report.announcement (Report.title root file) ∈ ((Report.start root).addAll (reported ++ before)).out ∧
    ∃ rest, ((Report.start root).addAll (reported ++ added)).err =
      ((Report.start root).addAll (reported ++ before)).err ++
        (lines.map (Report.Line.render file index)).flatten :: rest := by
  constructor
  · have hmem : .announce file ∈ reported ++ before :=
      List.mem_append_right _ (h before file index lines after hadded)
    exact (Report.announces_start root).addAll _ _ (Report.title_mem_announced hmem)
  · refine ⟨after.filterMap Report.Step.block?, ?_⟩
    rw [hadded, ← List.append_assoc, Report.addAll_append, Report.err_addAll]
    rfl

end CompileFail.Checks
