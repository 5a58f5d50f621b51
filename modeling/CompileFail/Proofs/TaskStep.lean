import CompileFail.Proofs.Interleaving
import CompileFail.Proofs.StandingCopies

/-! What the next step of a unit does in a tree that it shares with other units. It depends on the base
tree and on the unit alone, so what is left to a unit can be told by letting it run where no other copies
stand. -/

namespace CompileFail.Checks

variable {v : Verifier} {base : FileTree} {s : Session}

namespace Task

/-- The copy that a unit has written and not yet removed. -/
def standing (v : Verifier) : Task → List (Path × Text)
  | .copied file index _ content | .compiled file index (some content) _ =>
    [(copyPath file index v.toolName, content)]
  | _ => []

/-- The copy that a unit still has to do with. -/
def copies (v : Verifier) : Task → List Path
  | .due work => work.copies v.toolName
  | .announced file _ index | .copied file index _ _ | .compiled file index _ _ =>
    [copyPath file index v.toolName]
  | .settled .. => []

theorem mem_copies_of_standing {task : Task} {copy : Path} {content : Text}
    (h : (copy, content) ∈ task.standing v) : copy ∈ task.copies v := by
  cases task with
  | copied file index o content' =>
      obtain ⟨rfl, rfl⟩ := Prod.mk.inj (List.mem_singleton.mp h)
      exact List.mem_singleton_self _
  | compiled file index content? result =>
      cases content? with
      | none => cases h
      | some content' =>
          obtain ⟨rfl, rfl⟩ := Prod.mk.inj (List.mem_singleton.mp h)
          exact List.mem_singleton_self _
  | _ => cases h

theorem standing_eq (v : Verifier) (task : Task) :
    task.standing v = [] ∨ ∃ copy content, task.standing v = [(copy, content)] := by
  cases task with
  | copied file index o content => exact Or.inr ⟨_, _, rfl⟩
  | compiled file index content result =>
      cases content with
      | none => exact Or.inl rfl
      | some content => exact Or.inr ⟨_, _, rfl⟩
  | _ => exact Or.inl rfl

/-- A unit gives up no more than its copy. -/
theorem LeadsTo.copies_sublist {task next : Task} (h : task.LeadsTo next) :
    (next.copies v).Sublist (task.copies v) := by
  cases h <;> first | exact List.Sublist.refl _ | exact List.nil_sublist _

/-- The base tree with no copy but the unit's own. -/
def alone (v : Verifier) (base : FileTree) (task : Task) : FileTree :=
  match task.standing v with
  | [] => base
  | (copy, content) :: _ => (base.write copy content).toOption.getD base

/-- All that a unit will still do, told by letting it run alone. -/
def rest (v : Verifier) (base : FileTree) (task : Task) : List Event :=
  match _h : task.step v ⟨task.alone v base, []⟩ with
  | (none, s) => s.events
  | (some next, s) => s.events ++ next.rest v base
termination_by task.rank
decreasing_by exact (leadsTo_of_step _h).rank_lt

theorem rest_of_step {task : Task} {next : Option Task} {s : Session}
    (h : task.step v ⟨task.alone v base, []⟩ = (next, s)) :
    task.rest v base = s.events ++ next.toList.flatMap (rest v base) := by
  rw [rest]
  split
  · next s' hstep =>
    obtain ⟨rfl, rfl⟩ := Prod.mk.inj (h.symm.trans hstep)
    exact (List.append_nil _).symm
  · next next' s' hstep =>
    obtain ⟨rfl, rfl⟩ := Prod.mk.inj (h.symm.trans hstep)
    simp

end Task

/-- A unit that shares its tree with other copies: all of them stand in it, and they keep clear of each
other. -/
structure Fits (v : Verifier) (base : FileTree) (task : Task) (others : List (Path × Text))
    (tree : FileTree) :
    Prop where
  overlay : base.Overlay (task.standing v ++ others) tree
  vacant : ∀ copy ∈ task.copies v, base.Vacant copy
  others_vacant : ∀ other content, (other, content) ∈ others → base.Vacant other
  clear : ∀ copy ∈ task.copies v, ∀ other content, (other, content) ∈ others → base.ClearOf copy other

/-- The next step of a unit leads to the same unit and adds the same to the record whatever other copies
stand in the tree, and these stay as they are. -/
def StepsAlike (v : Verifier) (base : FileTree) (task : Task) (next : Option Task)
    (events : List Event) : Prop :=
  ∀ others s, Fits v base task others s.tree →
    ∃ tree, task.step v s = (next, (s.withTree tree).addAll events) ∧
      base.Overlay (next.toList.flatMap (Task.standing v) ++ others) tree

section Step

variable {answer : Path → Text → Except Fault Compilation} {file : Path} {index : Nat} (hlinks : base.NoLinks)

theorem stepsAlike_announced_skip {lines : List Text} (happlicable : v.applicable? lines index = none) :
    ∃ next events, StepsAlike v base (.announced file lines index) next events := by
  obtain ⟨result, events, -, hverify⟩ := verifyLine_of_not_applicable happlicable file
  refine ⟨some (.settled file index result), events, fun others s h => ⟨s.tree, ?_, h.overlay⟩⟩
  simp only [Task.step, happlicable, hverify]
  rfl

include hlinks

theorem stepsAlike_announced {lines : List Text} {o : Tag.Occurrence}
    (happlicable : v.applicable? lines index = some o) :
    ∃ next events, StepsAlike v base (.announced file lines index) next events := by
  cases hplace : base.locateFor .creation (copyPath file index v.toolName) with
  | error e =>
      refine ⟨some (.compiled file index none (.error (.fileWrite (copyPath file index v.toolName) e))), [],
        fun others s h => ⟨s.tree, ?_, h.overlay⟩⟩
      have hclear := h.clear _ (List.mem_singleton_self _)
      have hwrite := h.overlay.write_eq_error hlinks hclear hplace (Tag.activate lines index o)
      simp only [Task.step, happlicable, Verifier.writeCopy_of_error hwrite, Session.withTree_self,
        Session.addAll_nil]
  | ok place =>
      refine ⟨some (.copied file index o (Tag.activate lines index o)),
        [.wrote (copyPath file index v.toolName)], fun others s h => ?_⟩
      have hvacant := h.vacant _ (List.mem_singleton_self _)
      have hclear := h.clear _ (List.mem_singleton_self _)
      obtain ⟨tree, hwrite, hoverlay⟩ :=
        h.overlay.write_eq_ok hlinks hvacant hclear hplace (Tag.activate lines index o)
      refine ⟨tree, ?_, hoverlay⟩
      simp only [Task.step, happlicable, Verifier.writeCopy_of_ok hwrite]

theorem stepsAlike_compiled (content : Option Text) (result : Except Fault Verdict) :
    ∃ next events, StepsAlike v base (.compiled file index content result) next events := by
  cases content with
  | some content =>
      refine ⟨some (.settled file index result), [.removed (copyPath file index v.toolName)],
        fun others s h => ?_⟩
      have hvacant := h.vacant _ (List.mem_singleton_self _)
      have hclear := h.clear _ (List.mem_singleton_self _)
      obtain ⟨tree, hremove, hoverlay⟩ := h.overlay.remove_own hvacant h.others_vacant hlinks hclear
      exact ⟨tree, by simp only [Task.step, Verifier.removeCopy_of_ok hremove], hoverlay⟩
  | none =>
      -- The copy was never written, so it cannot be removed, for the same reason in all trees.
      obtain ⟨note, -, hremoved⟩ := Verifier.exists_removeCopy_of_error (copyPath file index v.toolName)
      cases hremove : base.remove (copyPath file index v.toolName) with
      | error e =>
          refine ⟨some (.settled file index result), note e, fun others s h => ⟨s.tree, ?_, h.overlay⟩⟩
          have hvacant := h.vacant _ (List.mem_singleton_self _)
          have hclear := h.clear _ (List.mem_singleton_self _)
          obtain ⟨e', he', hfails⟩ := h.overlay.remove_eq_error hlinks hvacant hclear
          obtain rfl := Except.error.inj (hremove.symm.trans he')
          simp only [Task.step, hremoved s e hfails, Session.withTree_self]
      | ok tree =>
          refine ⟨none, [], fun others s h => ?_⟩
          obtain ⟨e, -, hfails⟩ := (h.vacant _ (List.mem_singleton_self _)).remove_eq
          cases hremove.symm.trans hfails

variable (hcompiler : v.compiler = Compiler.ofAnswers answer)

include hcompiler

omit hlinks in
theorem stepsAlike_copied (o : Tag.Occurrence) (content : Text) :
    ∃ next events, StepsAlike v base (.copied file index o content) next events := by
  obtain ⟨note, -, hcompile⟩ := Verifier.exists_compile_bind_eq (copyPath file index v.toolName)
  refine ⟨some (.compiled file index (some content) ((answer (copyPath file index v.toolName) content).bind
      (Verifier.judge file (copyPath file index v.toolName) o.expected))),
    .compiled (copyPath file index v.toolName) (some content) ::
      note (answer (copyPath file index v.toolName) content), fun others s h => ⟨s.tree, ?_, h.overlay⟩⟩
  have hread : s.tree.readText (copyPath file index v.toolName) = .ok content :=
    h.overlay.readText_own (h.vacant _ (List.mem_singleton_self _)) h.others_vacant
  have hanswer : v.compiler (copyPath file index v.toolName) s.tree =
      (answer (copyPath file index v.toolName) content, s.tree) := by
    rw [hcompiler, Compiler.ofAnswers_of_readText hread]
  simp only [Task.step, compileCopy, hcompile, hanswer, hread]
  rfl

theorem exists_stepsAlike (task : Task) : ∃ next events, StepsAlike v base task next events := by
  cases task with
  | due work =>
      cases work with
      | announce file =>
          exact ⟨none, [.reported (.announce file)], fun others s h => ⟨s.tree, rfl, h.overlay⟩⟩
      | verify file lines index =>
          exact ⟨some (.announced file lines index), [.reported (.announce file)],
            fun others s h => ⟨s.tree, rfl, h.overlay⟩⟩
  | announced file lines index =>
      cases happlicable : v.applicable? lines index with
      | none => exact stepsAlike_announced_skip happlicable
      | some o => exact stepsAlike_announced hlinks happlicable
  | copied file index o content => exact stepsAlike_copied hcompiler o content
  | compiled file index content result => exact stepsAlike_compiled hlinks content result
  | settled file index result =>
      exact ⟨none, [.reported (Verdict.step file index result)], fun others s h => ⟨s.tree, rfl, h.overlay⟩⟩

end Step

/-- The unit that fits into a shared tree also fits into the tree in which it is alone. -/
theorem Fits.alone {task : Task} {others : List (Path × Text)} {tree : FileTree}
    (h : Fits v base task others tree) : Fits v base task [] (task.alone v base) := by
  refine ⟨?_, h.vacant, ?_, ?_⟩
  · rw [List.append_nil, Task.alone]
    rcases task.standing_eq v with hnone | ⟨copy, content, hcopy⟩
    · rw [hnone]
      exact FileTree.Overlay.refl base
    · have hmem : (copy, content) ∈ task.standing v := by rw [hcopy]; exact List.mem_singleton_self _
      have hvacant := h.vacant copy (Task.mem_copies_of_standing hmem)
      obtain ⟨place, hplace, -⟩ := h.overlay.copies copy content (List.mem_append_left _ hmem)
      rw [hcopy]
      dsimp only
      rw [FileTree.write_of_locateFor hplace (hvacant.entry?_eq_none hplace)]
      refine (FileTree.Overlay.refl base).insert hplace (hvacant.entry?_eq_none hplace) ?_
      rintro other content' ⟨⟩
  · rintro other content ⟨⟩
  · rintro copy - other content ⟨⟩

/-- A step of a unit, whatever other copies stand in the tree: the unit that is left, what is added to the
record, and that this is the first part of all that the unit will still do. -/
theorem Fits.step {answer : Path → Text → Except Fault Compilation} (hlinks : base.NoLinks)
    (hcompiler : v.compiler = Compiler.ofAnswers answer) {task : Task} {others : List (Path × Text)}
    (h : Fits v base task others s.tree) :
    ∃ next events tree, task.step v s = (next, (s.withTree tree).addAll events) ∧
      base.Overlay (next.toList.flatMap (Task.standing v) ++ others) tree ∧
      task.rest v base = events ++ next.toList.flatMap (Task.rest v base) := by
  obtain ⟨next, events, hstep⟩ := exists_stepsAlike hlinks hcompiler task
  obtain ⟨tree, hshared, hoverlay⟩ := hstep others s h
  obtain ⟨tree', halone, -⟩ := hstep [] ⟨task.alone v base, []⟩ h.alone
  exact ⟨next, events, tree, hshared, hoverlay, Task.rest_of_step halone⟩

end CompileFail.Checks
