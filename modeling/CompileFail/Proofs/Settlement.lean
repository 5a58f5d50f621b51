import CompileFail.Proofs.ReportOrder
import CompileFail.Proofs.ReportTally
import CompileFail.Proofs.SharedTree
import Mathlib.Data.List.Count

/-! What a run settles. However its units take turns, each of them brings one tagged line to one finding, and
each file is announced, or complained of if it cannot be read. So the findings of a run are in number the
tagged lines, and the files that it counts are the readable ones. -/

namespace CompileFail

namespace Checks

variable {v : Verifier} {base : FileTree} {s : Session}

/-! ### Lines and findings -/

instance (line : Text) : Decidable (Tag.HoldsTag line) := decidable_of_iff _ Tag.isTagged_iff

/-- The lines of a readable file in which a tag token occurs, each with the file and its number. -/
def taggedLines (tree : FileTree) (file : Path) : List (Path × Nat) :=
  match tree.readText file with
  | .ok text =>
    ((Text.splitLines text).zipIdx.filter fun numbered => Tag.HoldsTag numbered.1).map fun numbered =>
      (file, numbered.2)
  | .error _ => []

/-- A tagged line with what came of its check. -/
abbrev Finding := (Path × Nat) × Except Fault Verdict

def Finding.step (finding : Finding) : Report.Step := Verdict.step finding.1.1 finding.1.2 finding.2

/-- The line that a unit is about, if it is not just about a file. -/
def Work.lines : Work → List (Path × Nat)
  | .announce _ => []
  | .verify file _ index => [(file, index)]

theorem taggedIndices_eq (lines : List Text) :
    Tag.taggedIndices lines = (lines.zipIdx.filter fun numbered => Tag.HoldsTag numbered.1).map (·.2) := by
  rw [Tag.taggedIndices, ← List.filterMap_eq_filter, List.map_filterMap]
  refine List.filterMap_congr fun numbered _ => ?_
  simp only [Option.guard, Tag.isTagged_iff, decide_eq_true_eq]
  split <;> rfl

theorem taggedLines_of_ok {tree : FileTree} {file : Path} {text : Text} (h : tree.readText file = .ok text) :
    taggedLines tree file = (Tag.taggedIndices (Text.splitLines text)).map (file, ·) := by
  rw [taggedLines, h, taggedIndices_eq, List.map_map]
  rfl

theorem lines_worksOf (tree : FileTree) (file : Path) :
    (worksOf tree file).flatMap Work.lines = taggedLines tree file := by
  cases hread : tree.readText file with
  | error e =>
      rw [worksOf_of_error hread, taggedLines, hread]
      rfl
  | ok text =>
      rw [worksOf_of_ok hread, taggedLines_of_ok hread, Work.ofText]
      split
      · next hnone =>
        rw [hnone]
        rfl
      · rw [List.flatMap_map]
        exact List.map_eq_flatMap.symm

namespace Task

def lines : Task → List (Path × Nat)
  | .due work => work.lines
  | .announced file _ index | .copied file index _ _ | .compiled file index _ _ | .settled file index _ =>
    [(file, index)]

/-- What the next step of a unit brings to an end. -/
def findings : Task → List Finding
  | .settled file index result => [((file, index), result)]
  | _ => []

theorem filter_reports (task : Task) :
    task.reports.filter (!·.isAnnounce) = task.findings.map Finding.step := by
  cases task with
  | due work => cases work <;> rfl
  | settled file index result =>
      rcases result with fault | verdict
      · rfl
      · cases verdict <;> rfl
  | _ => rfl

/-- A unit keeps its line until it has a finding on it. -/
theorem lines_step (task : Task) (s : Session) :
    task.lines = task.findings.map (·.1) ++ (task.step v s).1.toList.flatMap lines := by
  cases task with
  | due work => cases work <;> rfl
  | announced file lines' index =>
      simp only [step]
      split
      · rfl
      · split <;> rfl
  | _ => rfl

end Task

/-- The accounts of a run at any time: all that was reported and not announced is a complaint or a finding.
The findings and the lines of the units under way and of the files still to be read are the tagged lines, and
each readable file was announced or has a unit that is due or is still to be read. -/
structure Accounted (base : FileTree) (files : List Path) (reported : List Report.Step) (p : Progress)
    (added : List Report.Step) (findings : List Finding) (complaints : List Complaint) : Prop where
  steps : p.session.steps = reported ++ added
  told : (added.filter (!·.isAnnounce)).Perm
    (complaints.map Complaint.step ++ findings.map Finding.step)
  lines : (findings.map (·.1) ++ p.tasks.flatMap Task.lines ++ p.unread.flatMap (taggedLines base)).Perm
    (files.flatMap (taggedLines base))
  unreadable : (complaints.map (·.1) ++ p.unread.filter (!readable base ·)).Perm
    (files.filter (!readable base ·))
  announced : ∀ file, (.announce file ∈ added ∨ (∃ task ∈ p.tasks, task.isDue = true ∧ task.file = file) ∨
    file ∈ p.unread ∧ readable base file = true) ↔ file ∈ files ∧ readable base file = true

theorem file_of_mem_worksOf {tree : FileTree} {file : Path} {work : Work} (h : work ∈ worksOf tree file) :
    (Task.due work).file = file := by
  cases hread : tree.readText file with
  | error e =>
      rw [worksOf_of_error hread] at h
      cases h
  | ok text =>
      rw [worksOf_of_ok hread, mem_ofText_iff] at h
      rcases h with ⟨-, rfl⟩ | ⟨index, -, rfl⟩ <;> rfl

theorem exists_mem_worksOf_iff {tree : FileTree} {file : Path} :
    (∃ work, work ∈ worksOf tree file) ↔ readable tree file = true := by
  cases hread : tree.readText file with
  | error e => simp [worksOf_of_error hread, readable, hread, Except.isOk, Except.toBool]
  | ok text =>
      have hne : Work.ofText file text ≠ [] := by
        unfold Work.ofText
        dsimp only
        split
        · exact List.cons_ne_nil _ _
        · next hsome => exact fun hnone => hsome (List.map_eq_nil_iff.mp hnone)
      simp [worksOf_of_ok hread, readable, hread, Except.isOk, Except.toBool, List.exists_mem_of_ne_nil _ hne]

/-- The units of a file are due for it, and there is one exactly if it can be read. -/
theorem exists_due_worksOf_iff {tree : FileTree} {file file' : Path} :
    (∃ task ∈ (worksOf tree file).map Task.due, task.isDue = true ∧ task.file = file') ↔
      file' = file ∧ readable tree file' = true := by
  constructor
  · rintro ⟨task, htask, -, rfl⟩
    obtain ⟨work, hwork, rfl⟩ := List.mem_map.mp htask
    have hfile := file_of_mem_worksOf hwork
    exact ⟨hfile, hfile ▸ exists_mem_worksOf_iff.mp ⟨work, hwork⟩⟩
  · rintro ⟨rfl, hreadable⟩
    obtain ⟨work, hwork⟩ := exists_mem_worksOf_iff.mpr hreadable
    exact ⟨_, List.mem_map_of_mem hwork, rfl, file_of_mem_worksOf hwork⟩

theorem Task.announce_mem_reports_iff {task : Task} {file : Path} :
    .announce file ∈ task.reports ↔ task.isDue = true ∧ task.file = file := by
  cases task with
  | due work => cases work <;> simp [reports, isDue, Task.file, eq_comm]
  | settled file' index result =>
      rcases result with fault | verdict
      · simp [reports, isDue, Verdict.step]
      · cases verdict <;> simp [reports, isDue, Verdict.step]
  | _ => simp [reports, isDue]

namespace Accounted

variable {files unread : List Path} {reported added : List Report.Step} {findings : List Finding}
  {complaints : List Complaint} {before after tasks : List Task} {task : Task}

theorem read {file : Path} (hshared : Shared v base ⟨file :: unread, tasks, s⟩)
    (h : Accounted base files reported ⟨file :: unread, tasks, s⟩ added findings complaints) :
    ∃ added complaints,
      Accounted base files reported ⟨unread, tasks ++ (submit file s).1.map .due, (submit file s).2⟩
        added findings complaints := by
  obtain ⟨new, hnew, hsubmit⟩ := hshared.submit_eq
  rw [hsubmit]
  refine ⟨added ++ new.map Complaint.step, complaints ++ new, ?_, ?_, ?_, ?_, ?_⟩
  · rw [Session.steps_addAll, steps_map_reported, ← List.append_assoc]
    exact congrArg (· ++ _) h.steps
  · have hkeep : (new.map Complaint.step).filter (!·.isAnnounce) = new.map Complaint.step :=
      List.filter_eq_self.mpr fun step hstep => by
        obtain ⟨complaint, -, rfl⟩ := List.mem_map.mp hstep
        rfl
    rw [List.filter_append, hkeep, List.map_append]
    refine (h.told.append_right _).trans ?_
    rw [List.append_assoc, List.append_assoc]
    exact List.perm_append_comm.append_left _
  · refine List.Perm.trans (List.Perm.of_eq ?_) h.lines
    simp only [List.flatMap_append, List.flatMap_map, List.flatMap_cons, List.append_assoc, ← lines_worksOf]
    rfl
  · refine List.Perm.trans (List.Perm.of_eq ?_) h.unreadable
    rw [List.map_append, hnew, List.append_assoc, ← List.filter_append]
    rfl
  · intro file'
    have hnew : .announce file' ∉ new.map Complaint.step := by
      intro hmem
      obtain ⟨complaint, -, hstep⟩ := List.mem_map.mp hmem
      cases hstep
    rw [← h.announced file']
    simp only [List.mem_append, or_and_right, exists_or, exists_due_worksOf_iff, or_iff_left hnew,
      List.mem_cons, or_assoc]

theorem advance (h : Accounted base files reported ⟨unread, before ++ task :: after, s⟩ added findings
    complaints) :
    Accounted base files reported ⟨unread, before ++ (task.step v s).1.toList ++ after, (task.step v s).2⟩
      (added ++ task.reports) (findings ++ task.findings) complaints := by
  refine ⟨?_, ?_, ?_, h.unreadable, ?_⟩
  · rw [Task.steps_step, ← List.append_assoc]
    exact congrArg (· ++ _) h.steps
  · rw [List.filter_append, Task.filter_reports, List.map_append, ← List.append_assoc]
    exact h.told.append_right _
  · refine List.Perm.trans ?_ h.lines
    simp only [List.flatMap_append, List.flatMap_cons, Task.lines_step (v := v) task s, List.map_append,
      List.perm_iff_count, List.count_append]
    intro line
    omega
  · intro file
    have hnext : ∀ next ∈ (task.step v s).1.toList, next.isDue = false := fun next hnext =>
      (Task.leadsTo_of_step (Prod.ext (Option.mem_toList.mp hnext) rfl)).file_eq.2
    rw [← h.announced file]
    simp only [List.mem_append, List.mem_cons, Task.announce_mem_reports_iff, or_and_right, exists_or,
      exists_eq_left]
    grind

theorem start (files : List Path) (workers : Nat) (s : Session) :
    Accounted s.tree files s.steps (start files workers s) [] [] [] := by
  refine ⟨?_, List.Perm.refl _, List.Perm.refl _, List.Perm.refl _, ?_⟩
  · exact Session.steps_addAll s [.logged (opening files workers)]
  · intro file
    simp [Checks.start]

section Done

variable {p : Progress} (h : Accounted base files reported p added findings complaints)

include h

end Done

end Accounted

end Checks

end CompileFail
