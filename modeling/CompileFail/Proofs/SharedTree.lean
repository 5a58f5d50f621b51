import CompileFail.Proofs.OccupiedCopy
import CompileFail.Proofs.TaskStep
import CompileFail.Proofs.WalkedFiles

/-! The tree of a run whose units share it. With a compiler that changes no file it is at all times the tree
of the start with some copies at places where nothing stood. What is read from the listed files is therefore
what would have been read at the start. -/

namespace CompileFail

namespace FileTree

variable {tree tree' grown : FileTree} {p : Path} {content : Text}

/-! ### Copies that come and go -/

/-- A copy that is written makes a grown tree grow on. -/
theorem Grown.write (hgrown : Grown tree grown) (hvacant : tree.Vacant p)
    (h : grown.write p content = .ok tree') : Grown tree tree' := by
  obtain ⟨target, htarget, -, ⟨-, rfl⟩ | ⟨-, executable, rfl⟩⟩ := write_eq_ok h
  · exact hgrown
  · have hfree := hvacant.entry?_eq_none (hgrown.locateFor_iff.mp htarget)
    refine ⟨hgrown.workDir, hgrown.clock, fun place => ?_⟩
    rw [entry?_insert (ne_nil_of_absent hfree)]
    split
    · next hplace => exact Or.inr ⟨hplace ▸ hfree, _, _, _, rfl⟩
    · exact hgrown.entry? place

/-- A copy that is removed was no part of the tree that has grown. -/
theorem Grown.without (hgrown : Grown tree grown) (hvacant : tree.Vacant p) :
    Grown tree (grown.without p) := by
  cases hfind : grown.find p false with
  | error e =>
      rw [(vacant_of_find hfind).without_eq]
      exact hgrown
  | ok found =>
      obtain ⟨own, entry⟩ := found
      by_cases hdir : entry = .dir
      · rw [without_of_find_dir (hdir ▸ hfind)]
        exact hgrown
      · obtain ⟨hown, hentry⟩ := find_eq_ok_iff.mp hfind
        have hne : own ≠ [] := ne_nil_of_entry?_ne_dir (hentry ▸ fun h => hdir (Option.some.inj h))
        have hfree : tree.entry? own = none := by
          cases hbase : tree.entry? own with
          | none => rfl
          | some entry =>
              exact absurd (find_of_locateFor (hgrown.locateFor_iff.mp hown) hbase) (hvacant own entry)
        rw [without_of_find hfind hdir]
        refine ⟨hgrown.workDir, hgrown.clock, fun place => ?_⟩
        rw [entry?_erase hne]
        split
        · next hplace => exact Or.inl (hplace ▸ hfree.symm)
        · exact hgrown.entry? place

end FileTree

namespace Checks

variable {v : Verifier} {base : FileTree} {s : Session}

theorem Task.grown_step (hsteady : v.compiler.Steady) {task : Task}
    (hvacant : ∀ copy ∈ task.copies v, base.Vacant copy) (h : base.Grown s.tree) :
    base.Grown (task.step v s).2.tree := by
  cases task with
  | due work => cases work <;> exact h
  | announced file lines index =>
      cases happlicable : v.applicable? lines index with
      | none =>
          obtain ⟨result, events, -, hverify⟩ := verifyLine_of_not_applicable happlicable file
          simp only [Task.step, happlicable, hverify]
          exact h
      | some o =>
          simp only [Task.step, happlicable]
          cases hwrite : s.tree.write (copyPath file index v.toolName) (Tag.activate lines index o) with
          | error e =>
              rw [Verifier.writeCopy_of_error hwrite]
              exact h
          | ok tree =>
              rw [Verifier.writeCopy_of_ok hwrite]
              exact h.write (hvacant _ (List.mem_singleton_self _)) hwrite
  | copied file index o content =>
      obtain ⟨note, -, hcompile⟩ := Verifier.exists_compile_bind_eq (copyPath file index v.toolName)
      simp only [Task.step, compileCopy, hcompile, hsteady _ _]
      exact h
  | compiled file index content result =>
      simp only [Task.step, Verifier.tree_removeCopy]
      exact h.without (hvacant _ (List.mem_singleton_self _))
  | settled file index result => exact h

/-- Whether a file can be read as text. -/
def readable (tree : FileTree) (file : Path) : Bool := (tree.readText file).isOk

/-- A file that could not be read, with the cause. -/
abbrev Complaint := Path × OsError

def Complaint.step (complaint : Complaint) : Report.Step := .technical (.fileRead complaint.1 complaint.2)

/-- What holds of the tree of a run at all times: it is the base tree with copies at places where nothing
stood, and from the files that are still to be read the same is read as from the base tree. -/
structure Shared (v : Verifier) (base : FileTree) (p : Progress) : Prop where
  grown : base.Grown p.session.tree
  vacant : ∀ copy ∈ p.tasks.flatMap (Task.copies v) ++ copies v.toolName base p.unread, base.Vacant copy
  stands : ∀ file ∈ p.unread, base.Stands file

namespace Shared

variable {file : Path} {unread : List Path} {before after tasks : List Task} {task : Task}

/-- A file gives rise to the units that it gives rise to in the base tree, or else to one complaint. -/
theorem submit_eq (h : Shared v base ⟨file :: unread, tasks, s⟩) : ∃ complaints : List Complaint,
    complaints.map (·.1) = [file].filter (!readable base ·) ∧
      submit file s = (worksOf base file, s.addAll ((complaints.map Complaint.step).map .reported)) := by
  have hread : ∀ text, s.tree.readText file = .ok text ↔ base.readText file = .ok text :=
    fun text => h.grown.readText_iff (h.stands file List.mem_cons_self)
  rw [Checks.submit_eq]
  cases hbase : base.readText file with
  | ok text =>
      have hshared := (hread text).mpr hbase
      refine ⟨[], by simp [readable, hbase, Except.isOk, Except.toBool], ?_⟩
      rw [worksOf_of_ok hbase, worksOf_of_ok hshared, readingSteps, hshared]
      rfl
  | error e =>
      cases hshared : s.tree.readText file with
      | ok text => cases hbase.symm.trans ((hread text).mp hshared)
      | error e' =>
          refine ⟨[(file, e')], by simp [readable, hbase, Except.isOk, Except.toBool], ?_⟩
          rw [worksOf_of_error hbase, worksOf_of_error hshared, readingSteps, hshared]
          rfl

theorem read (h : Shared v base ⟨file :: unread, tasks, s⟩) :
    Shared v base ⟨unread, tasks ++ (submit file s).1.map .due, (submit file s).2⟩ := by
  obtain ⟨complaints, -, hsubmit⟩ := h.submit_eq
  rw [hsubmit]
  refine ⟨h.grown, ?_, fun file' hfile' => h.stands file' (List.mem_cons_of_mem _ hfile')⟩
  have hvacant := h.vacant
  rw [copies_cons, ← List.append_assoc] at hvacant
  rw [List.flatMap_append, List.flatMap_map]
  exact hvacant

theorem advance (hsteady : v.compiler.Steady) (h : Shared v base ⟨unread, before ++ task :: after, s⟩) :
    Shared v base ⟨unread, before ++ (task.step v s).1.toList ++ after, (task.step v s).2⟩ := by
  have hvacant := h.vacant
  simp only [List.flatMap_append, List.flatMap_cons, List.forall_mem_append] at hvacant
  obtain ⟨⟨hbefore, htask, hafter⟩, hunread⟩ := hvacant
  refine ⟨Task.grown_step hsteady htask h.grown, ?_, h.stands⟩
  simp only [List.flatMap_append, List.forall_mem_append]
  refine ⟨⟨⟨hbefore, fun copy hcopy => ?_⟩, hafter⟩, hunread⟩
  obtain ⟨next, hnext, hcopy⟩ := List.mem_flatMap.mp hcopy
  have hstep : task.step v s = (some next, (task.step v s).2) :=
    Prod.ext (Option.mem_toList.mp hnext) rfl
  exact htask copy ((Task.leadsTo_of_step hstep).copies_sublist.subset hcopy)

end Shared

end Checks

end CompileFail
