import CompileFail.Proofs.LineCheck

/-! What the check of a line does to the files. If its tag does not apply it does nothing but write to the
log. Otherwise it writes the copy, has it compiled and tries to remove it, the last also if the copy could
not be written. Where nothing stood at the path of the copy, the compiler finds the tree with just the copy
in it, and afterwards the tree is as it was before; so checks that follow each other do not notice what the
others did. -/

namespace CompileFail

namespace FileTree

/-- The tree after what stands at a path was removed, if that is possible. -/
def without (tree : FileTree) (p : Path) : FileTree := (tree.remove p).toOption.getD tree

theorem Vacant.without_eq {tree : FileTree} {p : Path} (hvacant : tree.Vacant p) : tree.without p = tree := by
  obtain ⟨e, -, hremove⟩ := hvacant.remove_eq
  rw [without, hremove]
  rfl

end FileTree

namespace Verifier

variable {v : Verifier} {file : Path} {lines : List Text} {index : Nat} {o : Tag.Occurrence} {s : Session}

/-- A line carries a well-formed tag that holds in the configuration. -/
def Applies (v : Verifier) (lines : List Text) (index : Nat) (o : Tag.Occurrence) : Prop :=
  Tag.scan (lines.getD index []) = .occurrence o ∧ o.appliesTo v.configuration = true

/-- A line whose tag does not apply is settled without a look at the files or at the compiler. -/
theorem verifyLine_of_not_applies (h : ∀ o, ¬v.Applies lines index o) (file : Path) :
    ∃ (result : Except Fault Verdict) (entries : List Log.Entry), ∀ (compiler : Compiler) (s : Session),
      { v with compiler := compiler }.verifyLine file lines index s =
        (result, s.addAll (entries.map .logged)) := by
  simp only [verifyLine]
  cases hscan : Tag.scan (lines.getD index []) with
  | untagged => exact ⟨.ok .skip, [], fun _ s => by rw [List.map_nil, Session.addAll_nil]; rfl⟩
  | malformed reason => exact ⟨_, [], fun _ s => by rw [List.map_nil, Session.addAll_nil]; rfl⟩
  | occurrence o =>
      have hother : ¬o.appliesTo v.configuration = true := fun happlies => h o ⟨hscan, happlies⟩
      simp only [if_neg hother]
      exact ⟨.ok .skip, [⟨.debug, .verify, _⟩], fun _ _ => rfl⟩

theorem tree_removeCopy (copy : Path) (s : Session) : (removeCopy copy s).tree = s.tree.without copy := by
  rw [FileTree.without]
  cases hremove : s.tree.remove copy with
  | ok tree =>
      rw [removeCopy_of_ok hremove]
      rfl
  | error e =>
      obtain ⟨note, hremoved⟩ := exists_removeCopy_logged copy
      rw [hremoved s e hremove]
      rfl

/-- A copy that cannot be written is not compiled, but there is an attempt to remove it. -/
theorem verifyLine_of_write_eq_error (h : v.Applies lines index o) {e : OsError}
    (hwrite : s.tree.write (copyPath file index v.toolName) (Tag.activate lines index o) = .error e) :
    v.verifyLine file lines index s =
      (.error (.fileWrite (copyPath file index v.toolName) e),
        removeCopy (copyPath file index v.toolName) s) := by
  obtain ⟨hscan, happlies⟩ := h
  simp only [verifyLine, hscan, happlies, if_true, withCopy, Act.bind_apply, writeCopy_of_error hwrite]

/-- A copy that is written is compiled in the tree with the copy, and what the compiler left is the tree
from which the copy is then removed. -/
theorem verifyLine_of_write_eq_ok (h : v.Applies lines index o) {tree : FileTree}
    (hwrite : s.tree.write (copyPath file index v.toolName) (Tag.activate lines index o) = .ok tree) :
    let copy := copyPath file index v.toolName
    ∃ entries : List Log.Entry, v.verifyLine file lines index s =
      ((v.compiler copy tree).1.bind (judge file copy o.expected),
        removeCopy copy ((s.withTree (v.compiler copy tree).2).addAll
          (.wrote copy :: .compiled copy (tree.readText copy).toOption :: entries.map .logged))) := by
  intro copy
  obtain ⟨hscan, happlies⟩ := h
  obtain ⟨note, hcompile⟩ := exists_compile_bind_logged copy
  refine ⟨note (v.compiler copy tree).1, ?_⟩
  simp only [verifyLine, hscan, happlies, if_true, withCopy, Act.bind_apply, writeCopy_of_ok hwrite]
  rw [← Act.bind_apply, hcompile]
  simp only [Session.tree_addAll, Session.tree_withTree, Session.withTree_addAll,
    Session.withTree_withTree, Session.addAll_addAll, List.singleton_append]
  rfl

theorem tree_verifyLine_of_write_eq_error (h : v.Applies lines index o) {e : OsError}
    (hwrite : s.tree.write (copyPath file index v.toolName) (Tag.activate lines index o) = .error e) :
    (v.verifyLine file lines index s).2.tree = s.tree.without (copyPath file index v.toolName) := by
  rw [verifyLine_of_write_eq_error h hwrite, tree_removeCopy]

theorem tree_verifyLine_of_write_eq_ok (h : v.Applies lines index o) {tree : FileTree}
    (hwrite : s.tree.write (copyPath file index v.toolName) (Tag.activate lines index o) = .ok tree) :
    (v.verifyLine file lines index s).2.tree =
      (v.compiler (copyPath file index v.toolName) tree).2.without (copyPath file index v.toolName) := by
  obtain ⟨entries, hverify⟩ := verifyLine_of_write_eq_ok h hwrite
  rw [hverify, tree_removeCopy]
  rfl

/-! ### Checks that leave no trace -/

/-- A line of a file that is to be checked, and by whom. -/
structure Check where
  verifier : Verifier
  file : Path
  lines : List Text
  index : Nat

namespace Check

variable {c : Check}

def run (c : Check) : StateM Session (Except Fault Verdict) :=
  (c.verifier.verifyLine c.file c.lines c.index).run

def copy (c : Check) : Path := copyPath c.file c.index c.verifier.toolName

def Applies (c : Check) (o : Tag.Occurrence) : Prop := c.verifier.Applies c.lines c.index o

/-- What a check does in a session is undone when it is over. -/
structure LeavesNoTrace (c : Check) (s : Session) : Prop where
  tree : (c.run s).2.tree = s.tree
  /-- If the tag does not apply, nothing is written or compiled on the way. -/
  idle : (∀ o, ¬c.Applies o) → ∃ entries : List Log.Entry, (c.run s).2 = s.addAll (entries.map .logged)
  /-- Nor if the copy cannot be written. -/
  refused : ∀ o e, c.Applies o → s.tree.write c.copy (Tag.activate c.lines c.index o) = .error e →
    (c.run s).1 = .error (.fileWrite c.copy e) ∧
    ∃ entries : List Log.Entry, (c.run s).2 = s.addAll (entries.map .logged)
  /-- If it can, the compiler is asked in a tree with one further file, which holds the activated text. -/
  asked : ∀ o written, c.Applies o → s.tree.write c.copy (Tag.activate c.lines c.index o) = .ok written →
    (∃ place, s.tree.locateFor .creation c.copy = .ok place ∧ s.tree.entry? place = none ∧
      written = s.tree.insert place (.file (.text (Tag.activate c.lines c.index o)) false s.tree.clock)) ∧
    (c.run s).1 = (c.verifier.compiler c.copy written).1.bind (judge c.file c.copy o.expected) ∧
    ∃ entries : List Log.Entry, (c.run s).2 = s.addAll
      ([.wrote c.copy, .compiled c.copy (some (Tag.activate c.lines c.index o))] ++
        entries.map .logged ++ [.removed c.copy])

theorem leavesNoTrace_of_not_applies (h : ∀ o, ¬c.Applies o) : c.LeavesNoTrace s := by
  obtain ⟨result, entries, hverify⟩ := verifyLine_of_not_applies h c.file
  have hrun : c.run s = (result, s.addAll (entries.map .logged)) := hverify c.verifier.compiler s
  refine ⟨?_, fun _ => ⟨entries, ?_⟩, fun o e ho => absurd ho (h o), fun o tree ho => absurd ho (h o)⟩
  · rw [hrun, Session.tree_addAll]
  · rw [hrun]

theorem Applies.unique {o o' : Tag.Occurrence} (h : c.Applies o) (h' : c.Applies o') : o = o' := by
  have hscan := h.1.symm.trans h'.1
  exact Tag.Scan.occurrence.inj hscan

theorem leavesNoTrace_of_refused (hvacant : s.tree.Vacant c.copy) (h : c.Applies o) {e : OsError}
    (hwrite : s.tree.write c.copy (Tag.activate c.lines c.index o) = .error e) : c.LeavesNoTrace s := by
  have hrun : c.run s = (.error (.fileWrite c.copy e), removeCopy c.copy s) :=
    verifyLine_of_write_eq_error h hwrite
  obtain ⟨e', -, hremove⟩ := hvacant.remove_eq
  obtain ⟨note, hremoved⟩ := exists_removeCopy_logged c.copy
  rw [hremoved s e' hremove] at hrun
  refine ⟨?_, fun hnone => absurd h (hnone o), fun o' e'' ho' hwrite' => ?_, fun o' tree ho' hwrite' => ?_⟩
  · rw [hrun, Session.tree_addAll]
  · obtain rfl := h.unique ho'
    obtain rfl := Except.error.inj (hwrite.symm.trans hwrite')
    rw [hrun]
    exact ⟨rfl, _, rfl⟩
  · obtain rfl := h.unique ho'
    cases hwrite.symm.trans hwrite'

theorem leavesNoTrace_of_asked (hsteady : c.verifier.compiler.Steady) (hvacant : s.tree.Vacant c.copy)
    (h : c.Applies o) {tree : FileTree}
    (hwrite : s.tree.write c.copy (Tag.activate c.lines c.index o) = .ok tree) : c.LeavesNoTrace s := by
  obtain ⟨place, hplace, rfl⟩ := hvacant.write_eq_ok_iff.mp hwrite
  obtain ⟨entries, hverify⟩ := verifyLine_of_write_eq_ok h hwrite
  change c.run s = (_, removeCopy c.copy ((s.withTree (c.verifier.compiler c.copy _).2).addAll
    (.wrote c.copy :: .compiled c.copy (FileTree.readText _ c.copy).toOption :: _))) at hverify
  rw [hsteady, hvacant.readText_insert hplace, removeCopy_addAll (hvacant.remove_insert hplace)] at hverify
  refine ⟨?_, fun hnone => absurd h (hnone o), fun o' e' ho' hwrite' => ?_, fun o' tree' ho' hwrite' => ?_⟩
  · rw [hverify, Session.tree_addAll]
  · obtain rfl := h.unique ho'
    cases hwrite.symm.trans hwrite'
  · obtain rfl := h.unique ho'
    obtain rfl := Except.ok.inj (hwrite.symm.trans hwrite')
    refine ⟨⟨place, hplace, hvacant.entry?_eq_none hplace, rfl⟩, ?_, entries, ?_⟩
    · rw [hverify]
      rfl
    · rw [hverify]
      rfl

theorem leavesNoTrace (hsteady : c.verifier.compiler.Steady) (hvacant : s.tree.Vacant c.copy) :
    c.LeavesNoTrace s := by
  by_cases happlies : ∃ o, c.Applies o
  · obtain ⟨o, ho⟩ := happlies
    cases hwrite : s.tree.write c.copy (Tag.activate c.lines c.index o) with
    | error e => exact leavesNoTrace_of_refused hvacant ho hwrite
    | ok tree => exact leavesNoTrace_of_asked hsteady hvacant ho hwrite
  · exact leavesNoTrace_of_not_applies (not_exists.mp happlies)

theorem tree_mapM_run {checks : List Check} (hsteady : ∀ c ∈ checks, c.verifier.compiler.Steady)
    (hvacant : ∀ c ∈ checks, s.tree.Vacant c.copy) : (checks.mapM run s).2.tree = s.tree := by
  induction checks generalizing s with
  | nil => rfl
  | cons c checks ih =>
      rw [List.forall_mem_cons] at hsteady hvacant
      have hfirst := (leavesNoTrace hsteady.1 hvacant.1).tree
      have hrest : (checks.mapM run (c.run s).2).2.tree = (c.run s).2.tree :=
        ih hsteady.2 (hfirst ▸ hvacant.2)
      rw [List.mapM_cons]
      exact hrest.trans hfirst

end Check

/-- Checks with compilers that change no file leave the tree as it was, if nothing stands at the paths of
their copies, and so does each of them: when the compiler is asked, the tree holds just the copy more than
at the start, and a line whose tag does not apply gives rise to no file at all. -/
theorem checks_restore_tree (checks : List Check) (s : Session)
    (hsteady : ∀ c ∈ checks, c.verifier.compiler.Steady) (hvacant : ∀ c ∈ checks, s.tree.Vacant c.copy) :
    (checks.mapM Check.run s).2.tree = s.tree ∧
    ∀ before c after, checks = before ++ c :: after →
      (before.mapM Check.run s).2.tree = s.tree ∧ c.LeavesNoTrace (before.mapM Check.run s).2 := by
  refine ⟨Check.tree_mapM_run hsteady hvacant, ?_⟩
  rintro before c after rfl
  have hbefore : (before.mapM Check.run s).2.tree = s.tree :=
    Check.tree_mapM_run (fun c' hc' => hsteady c' (List.mem_append_left _ hc'))
      (fun c' hc' => hvacant c' (List.mem_append_left _ hc'))
  have hc : c ∈ before ++ c :: after := List.mem_append_right _ List.mem_cons_self
  refine ⟨hbefore, Check.leavesNoTrace (hsteady c hc) ?_⟩
  rw [hbefore]
  exact hvacant c hc

/-- One line is checked for two configurations, and its tag is meant for the first of them. -/
theorem checks_restore_tree_configured :
    let lines : List Text := ["// f(); // [CompilationError-D]: no f"]
    let tree := FileTree.empty.insert [("a.cc" : Text)] (.file (.text (lines.getD 0 [])) false 0)
    let answer : Path → Text → Except Fault Compilation := fun _ _ => .ok ⟨true, some 0, []⟩
    let check := fun configuration => Check.mk (.answering answer configuration "t") ⟨"/a.cc"⟩ lines 0
    (∀ c ∈ [check "D", check "E"], c.verifier.compiler.Steady ∧ tree.Vacant c.copy) ∧
      (check "D").Applies ⟨some "D", "no f", "f(); // [CompilationError-D]: no f"⟩ ∧
      ([check "D", check "E"].mapM Check.run ⟨tree, []⟩).2.tree = tree := by
  intro lines tree answer check
  have hfind : tree.find ⟨"/a.t-1.cc"⟩ false = .error .notFound := by rfl
  have hcopyPath : copyPath ⟨"/a.cc"⟩ 0 "t" = ⟨"/a.t-1.cc"⟩ := by rfl
  have hcopy : ∀ configuration, (check configuration).copy = ⟨"/a.t-1.cc"⟩ := fun _ => hcopyPath
  have hsteady : ∀ c ∈ [check "D", check "E"], c.verifier.compiler.Steady := by
    simp only [List.mem_cons, List.not_mem_nil, or_false, forall_eq_or_imp, forall_eq]
    exact ⟨Compiler.steady_ofAnswers answer, Compiler.steady_ofAnswers answer⟩
  have hvacant : ∀ c ∈ [check "D", check "E"], tree.Vacant c.copy := by
    simp only [List.mem_cons, List.not_mem_nil, or_false, forall_eq_or_imp, forall_eq, hcopy]
    exact ⟨FileTree.vacant_of_find hfind, FileTree.vacant_of_find hfind⟩
  exact ⟨fun c hc => ⟨hsteady c hc, hvacant c hc⟩, ⟨by rfl, by decide⟩,
    (checks_restore_tree [check "D", check "E"] ⟨tree, []⟩ hsteady hvacant).1⟩

end Verifier

end CompileFail
