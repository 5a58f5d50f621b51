import CompileFail.Proofs.ReportOrder
import CompileFail.Proofs.TaskStep

/-! The order in which the steps of the units are taken does not matter. While a run goes on, its tree is
the tree of the start with some copies in it, and its record together with all that the units and the
unread files will still add is the same up to order. So all runs that come to an end leave the same tree,
the same outcome, the same counts and the same reports. Only the cause for which a file is unreadable may
depend on the order, and it does if the path of the file breaks off at the place of a copy: a name is missing
there, or is that of a file. -/

namespace CompileFail

namespace Checks

variable {v : Verifier} {base : FileTree}

/-- All that will be done because of a file that is not yet read. -/
def fileRest (v : Verifier) (base : FileTree) (file : Path) : List Event :=
  (readingSteps base file).map .reported ++
    (worksOf base file).flatMap fun work => (Task.due work).rest v base

/-- A view of events does not tell apart the causes for which a file is unreadable. -/
def Overlooks (view : Event → Event) (file : Path) : Prop :=
  ∀ e e', view (.reported (.technical (.fileRead file e))) = view (.reported (.technical (.fileRead file e')))

/-- What holds of a run at all times, with its record as seen in a view. -/
structure Invariant (v : Verifier) (base : FileTree) (view : Event → Event) (record : List Event)
    (p : Progress) : Prop where
  overlay : base.Overlay (p.tasks.flatMap (Task.standing v)) p.session.tree
  apart : base.Apart (Overlooks view) p.unread
    (p.tasks.flatMap (Task.copies v) ++ copies v.toolName base p.unread)
  record : ((p.session.events ++ p.tasks.flatMap (Task.rest v base) ++
    p.unread.flatMap (fileRest v base)).map view).Perm record

section Preservation

variable {view : Event → Event} {record : List Event} {unread : List Path} {before after tasks : List Task}
  {task : Task} {s : Session}

/-- A file gives rise to the same units whatever copies stand, and to a complaint that looks the same. -/
theorem Invariant.submit_eq (hlinks : base.NoLinks) {file : Path}
    (h : Invariant v base view record ⟨file :: unread, tasks, s⟩) :
    ∃ steps : List Report.Step, submit file s = (worksOf base file, s.addAll (steps.map .reported)) ∧
      (steps.map .reported).map view = ((readingSteps base file).map .reported).map view := by
  have hcopies : ∀ other content, (other, content) ∈ tasks.flatMap (Task.standing v) →
      other ∈ tasks.flatMap (Task.copies v) ++ copies v.toolName base (file :: unread) := by
    intro other content hmem
    obtain ⟨task, htask, hstanding⟩ := List.mem_flatMap.mp hmem
    exact List.mem_append_left _
      (List.mem_flatMap.mpr ⟨task, htask, Task.mem_copies_of_standing hstanding⟩)
  refine ⟨readingSteps s.tree file, ?_⟩
  rw [Checks.submit_eq]
  rcases h.apart.unlisted file List.mem_cons_self with ⟨hoverlooks, hbroken⟩ | hclear
  · have hvacant := fun other content hmem => h.apart.vacant other (hcopies other content hmem)
    obtain ⟨e, he⟩ := hbroken.readText_eq_error
    obtain ⟨e', he'⟩ := (h.overlay.broken hvacant hbroken).readText_eq_error
    rw [worksOf_of_error he, worksOf_of_error he', readingSteps, readingSteps, he, he']
    exact ⟨rfl, congrArg (fun event => [event]) (hoverlooks e' e)⟩
  · have hread := h.overlay.readText_eq hlinks fun other content hmem =>
      hclear other (hcopies other content hmem)
    rw [worksOf, worksOf, readingSteps, readingSteps, hread]
    exact ⟨rfl, rfl⟩

theorem Invariant.read (hlinks : base.NoLinks) {file : Path}
    (h : Invariant v base view record ⟨file :: unread, tasks, s⟩) :
    Invariant v base view record ⟨unread, tasks ++ (submit file s).1.map .due, (submit file s).2⟩ := by
  obtain ⟨steps, hsubmit, hview⟩ := h.submit_eq hlinks
  rw [hsubmit]
  obtain ⟨hoverlay, hapart, hrecord⟩ := h
  refine ⟨?_, ?_, ?_⟩
  · have hnone : ((worksOf base file).map Task.due).flatMap (Task.standing v) = [] := by
      simp [List.flatMap_map, Task.standing]
    rw [List.flatMap_append, hnone, List.append_nil]
    exact hoverlay
  · rw [copies_cons, ← List.append_assoc] at hapart
    rw [List.flatMap_append, List.flatMap_map]
    exact hapart.of_sublist (List.subset_cons_self _ _) (List.Sublist.refl _)
  · refine List.Perm.trans ?_ hrecord
    simp only [List.flatMap_append, List.flatMap_map, List.flatMap_cons, fileRest, Session.events_addAll,
      List.map_append, hview, List.perm_iff_count, List.count_append]
    intro event
    omega

theorem flatMap_middle_perm {α : Type} (f : Task → List α) (before : List Task) (task : Task)
    (after : List Task) :
    ((before ++ task :: after).flatMap f).Perm (f task ++ (before ++ after).flatMap f) :=
  List.Perm.flatMap_right f List.perm_middle

theorem Invariant.fits (h : Invariant v base view record ⟨unread, before ++ task :: after, s⟩) :
    Fits v base task ((before ++ after).flatMap (Task.standing v)) s.tree := by
  have hapart := h.apart.of_perm ((flatMap_middle_perm (Task.copies v) before task after).append_right _)
  rw [List.append_assoc] at hapart
  have hothers : ∀ other content, (other, content) ∈ (before ++ after).flatMap (Task.standing v) →
      other ∈ (before ++ after).flatMap (Task.copies v) ++ copies v.toolName base unread := by
    intro other content hmem
    obtain ⟨task', htask', hstanding⟩ := List.mem_flatMap.mp hmem
    exact List.mem_append_left _ (List.mem_flatMap.mpr ⟨task', htask', Task.mem_copies_of_standing hstanding⟩)
  refine ⟨?_, ?_, ?_, ?_⟩
  · exact h.overlay.congr fun x => (flatMap_middle_perm (Task.standing v) before task after).mem_iff.symm
  · exact fun copy hcopy => hapart.vacant copy (List.mem_append_left _ hcopy)
  · exact fun other content hmem => hapart.vacant other (List.mem_append_right _ (hothers other content hmem))
  · intro copy hcopy other content hmem
    exact ((List.pairwise_append.mp hapart.clear).2.2 copy hcopy other (hothers other content hmem)).1

theorem Invariant.advance {answer : Path → Text → Except Fault Compilation} (hlinks : base.NoLinks)
    (hcompiler : v.compiler = Compiler.ofAnswers answer)
    (h : Invariant v base view record ⟨unread, before ++ task :: after, s⟩) :
    Invariant v base view record
      ⟨unread, before ++ (task.step v s).1.toList ++ after, (task.step v s).2⟩ := by
  obtain ⟨next, events, tree, hstep, hoverlay, hrest⟩ := h.fits.step hlinks hcompiler
  obtain ⟨-, hapart, hrecord⟩ := h
  rw [hstep]
  refine ⟨?_, ?_, ?_⟩
  · refine hoverlay.congr fun x => ?_
    simp only [List.flatMap_append, List.mem_append, or_assoc, or_left_comm]
  · refine hapart.of_sublist (List.Subset.refl _) (List.Sublist.append_right ?_ _)
    have hnext : (next.toList.flatMap (Task.copies v)).Sublist (task.copies v) := by
      cases next with
      | none => exact List.nil_sublist _
      | some next => simpa using (Task.leadsTo_of_step hstep).copies_sublist
    simp only [List.flatMap_append, List.flatMap_cons, List.append_assoc]
    exact List.Sublist.append_left (List.Sublist.append_right hnext _) _
  · refine List.Perm.trans ?_ hrecord
    simp only [List.flatMap_append, List.flatMap_cons, hrest, Session.events_addAll, Session.events_withTree,
      List.map_append, List.perm_iff_count, List.count_append]
    intro event
    omega

theorem Invariant.done {p : Progress} (h : Invariant v base view record p) (hdone : p.Done) :
    p.session.tree = base ∧ (p.session.events.map view).Perm record := by
  obtain ⟨hoverlay, -, hrecord⟩ := h
  obtain ⟨hunread, htasks⟩ := hdone
  rw [htasks] at hoverlay
  rw [htasks, hunread, List.flatMap_nil, List.flatMap_nil, List.append_nil, List.append_nil] at hrecord
  exact ⟨hoverlay.eq_base, hrecord⟩

section Done

variable {answer : Path → Text → Except Fault Compilation} {files : List Path} {workers : Nat} {p : Progress}
  (hlinks : s.tree.NoLinks) (hcompiler : v.compiler = Compiler.ofAnswers answer)
  (hseparate : s.tree.Separate files (copies v.toolName s.tree files))
  (hreach : Reaches v (start files workers s) p) (hdone : p.Done)

include hlinks hcompiler hseparate hreach hdone

end Done

end Preservation

end Checks

end CompileFail
