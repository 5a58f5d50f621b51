import CompileFail.Proofs.Acts
import CompileFail.Proofs.CopyFile

/-! The check of one line as a function of the file tree. If nothing stands at the path of the copy and
the compiler leaves all files alone, then the check leaves the tree as it was, and what comes of it is
what the tag, the tree and the compiler's answer determine. -/

namespace CompileFail

/-- A compiler that changes no file. -/
def Compiler.Steady (compiler : Compiler) : Prop := ∀ file tree, (compiler file tree).2 = tree

theorem Compiler.steady_ofAnswers (answer : Path → Text → Except Fault Compilation) :
    (Compiler.ofAnswers answer).Steady := fun _ _ => rfl

theorem Compiler.ofAnswers_of_readText {answer : Path → Text → Except Fault Compilation} {file : Path}
    {tree : FileTree} {content : Text} (h : tree.readText file = .ok content) :
    Compiler.ofAnswers answer file tree = (answer file content, tree) := by
  rw [ofAnswers, h]

/-- A verifier whose compiler answers by the path and the text alone. -/
def Verifier.answering (answer : Path → Text → Except Fault Compilation) (configuration toolName : Text) :
    Verifier :=
  ⟨Compiler.ofAnswers answer, configuration, toolName⟩

namespace Verifier

variable {s : Session} {copy : Path} {content : Text}

theorem writeCopy_of_ok {tree : FileTree} (h : s.tree.write copy content = .ok tree) :
    writeCopy copy content s = (.ok (), (s.withTree tree).addAll [.wrote copy]) := by
  simp only [writeCopy, Act.bind_apply, Act.change_apply, h, Act.emit_apply]

theorem writeCopy_of_error {e : OsError} (h : s.tree.write copy content = .error e) :
    writeCopy copy content s = (.error (.fileWrite copy e), s) := by
  simp only [writeCopy, Act.bind_apply, Act.change_apply, h, Session.withTree_self]

/-- A compilation is recorded with the text that the compiler found; what else it leaves in the log
depends on its result alone. -/
theorem exists_compile_logged (file : Path) : ∃ note : Except Fault Compilation → List Log.Entry,
    ∀ (compiler : Compiler) (s : Session), compile compiler file s =
      ((compiler file s.tree).1, (s.withTree (compiler file s.tree).2).addAll
        (.compiled file (s.tree.readText file).toOption ::
          (note (compiler file s.tree).1).map .logged)) := by
  refine ⟨fun
    | .ok compilation => [⟨.debug, .compile, ("Compiled " : Text) ++ file.display ++
        (" (exit code " : Text) ++ exitCodeText compilation.exitCode ++ [')']⟩]
    | .error _ => [], ?_⟩
  intro compiler s
  simp only [compile, Act.bind_apply, Act.inspect_apply, Act.emit_apply, Act.change_apply,
    Session.tree_addAll]
  rcases compiler file s.tree with ⟨fault | compilation, tree⟩
  · rfl
  · simp only [Act.log_apply, Act.pure_apply, Session.withTree_addAll, Session.addAll_addAll,
      List.singleton_append]
    rfl

theorem removeCopy_of_ok {tree : FileTree} (h : s.tree.remove copy = .ok tree) :
    removeCopy copy s = (s.withTree tree).addAll [.removed copy] := by
  rw [removeCopy, h]
  rfl

/-- A removal that restores the tree leaves nothing but its trace among the events. -/
theorem removeCopy_addAll {tree : FileTree} (h : tree.remove copy = .ok s.tree) (events : List Event) :
    removeCopy copy ((s.withTree tree).addAll events) = s.addAll (events ++ [.removed copy]) := by
  have hremove : ((s.withTree tree).addAll events).tree.remove copy = .ok s.tree := h
  rw [removeCopy_of_ok hremove, Session.withTree_addAll, Session.withTree_withTree, Session.withTree_self,
    Session.addAll_addAll]

theorem exists_removeCopy_logged (copy : Path) : ∃ note : OsError → List Log.Entry,
    ∀ (s : Session) (e : OsError), s.tree.remove copy = .error e →
      removeCopy copy s = s.addAll ((note e).map .logged) := by
  refine ⟨fun e => if e = .notFound then [] else [⟨.warn, .verify,
    ("Failed to remove " : Text) ++ copy.display ++ (": " : Text) ++ e.message⟩], ?_⟩
  intro s e h
  by_cases hfound : e = .notFound
  · simp only [removeCopy, h, hfound, if_true, List.map_nil, Session.addAll_nil]
  · simp only [removeCopy, h, hfound, if_false]
    rfl

theorem exists_removeCopy_of_error (copy : Path) : ∃ note : OsError → List Event,
    (∀ e, Event.steps (note e) = []) ∧
    ∀ (s : Session) (e : OsError), s.tree.remove copy = .error e → removeCopy copy s = s.addAll (note e) := by
  obtain ⟨note, hremoved⟩ := exists_removeCopy_logged copy
  exact ⟨fun e => (note e).map .logged, fun _ => Event.steps_map_logged _, hremoved⟩

/-- What comes of a copy that is written, compiled and held against the expected message. -/
def copyFinding (v : Verifier) (tree : FileTree) (file copy : Path) (expected content : Text) :
    Except Fault Verdict :=
  match tree.write copy content with
  | .error e => .error (.fileWrite copy e)
  | .ok tree => (v.compiler copy tree).1.bind (judge file copy expected)

/-- What comes of the check of one line. -/
def finding (v : Verifier) (tree : FileTree) (file : Path) (lines : List Text) (index : Nat) :
    Except Fault Verdict :=
  match Tag.scan (lines.getD index []) with
  | .untagged => .ok .skip
  | .malformed reason => .ok (.fail [⟨.error, reason.message⟩])
  | .occurrence o =>
    if o.appliesTo v.configuration then
      v.copyFinding tree file (copyPath file index v.toolName) o.expected (Tag.activate lines index o)
    else .ok .skip

theorem exists_compile_bind_logged (copy : Path) : ∃ note : Except Fault Compilation → List Log.Entry,
    ∀ {β : Type} (compiler : Compiler) (f : Compilation → Except Fault β) (s : Session),
      (do
        let compilation ← compile compiler copy
        Act.inspect? fun _ => f compilation : Act β) s =
      ((compiler copy s.tree).1.bind f, (s.withTree (compiler copy s.tree).2).addAll
        (.compiled copy (s.tree.readText copy).toOption ::
          (note (compiler copy s.tree).1).map .logged)) := by
  obtain ⟨note, hcompile⟩ := exists_compile_logged copy
  refine ⟨note, ?_⟩
  intro β compiler f s
  rw [Act.bind_apply, hcompile]
  rcases (compiler copy s.tree).1 with fault | compilation
  · rfl
  · exact Act.inspect?_apply _ _

theorem exists_compile_bind_eq (copy : Path) : ∃ note : Except Fault Compilation → List Event,
    (∀ result, Event.steps (note result) = []) ∧
    ∀ {β : Type} (compiler : Compiler) (f : Compilation → Except Fault β) (s : Session),
      (do
        let compilation ← compile compiler copy
        Act.inspect? fun _ => f compilation : Act β) s =
      ((compiler copy s.tree).1.bind f, (s.withTree (compiler copy s.tree).2).addAll
        (.compiled copy (s.tree.readText copy).toOption :: note (compiler copy s.tree).1)) := by
  obtain ⟨note, hcompile⟩ := exists_compile_bind_logged copy
  exact ⟨fun result => (note result).map .logged, fun _ => Event.steps_map_logged _, hcompile⟩

section Finding

variable {v : Verifier} (hsteady : v.compiler.Steady) {file : Path}

include hsteady

end Finding

end Verifier

end CompileFail
