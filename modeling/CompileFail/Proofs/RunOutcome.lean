import CompileFail.Proofs.Independence
import CompileFail.Proofs.Judgement
import CompileFail.Proofs.TagGrammar

/-! The outcome of a run in terms of the files, the tags and the compiler's answers. A run passes exactly
if every file can be read and every tagged line is met or meant for another configuration; it ends in a
technical error exactly if a file cannot be read or the check of a line gets nowhere. -/

namespace CompileFail

namespace Checks

section Conditions

variable (answer : Path → Text → Except Fault Compilation) (configuration toolName : Text) (tree : FileTree)

end Conditions

section Finding

variable {answer : Path → Text → Except Fault Compilation} {configuration toolName : Text} {tree : FileTree}
  {file : Path} {lines : List Text} {index : Nat} {line : Text}

/-- A finding that leaves the outcome as it is. -/
def Harmless (result : Except Fault Verdict) : Prop := result = .ok .pass ∨ result = .ok .skip

theorem outcome_verdictStep_eq_passed_iff {result : Except Fault Verdict} :
    (Verdict.step file index result).outcome = .passed ↔ Harmless result := by
  unfold Harmless
  rcases result with fault | verdict
  · simp [Verdict.step, Report.Step.outcome]
  · cases verdict <;> simp [Verdict.step, Report.Step.outcome]

section Copy

variable {copy : Path} (hvacant : tree.Vacant copy) {expected content : Text}

include hvacant

end Copy

section Line

variable (hvacant : tree.Vacant (copyPath file index toolName)) (hline : lines[index]? = some line)
  (htag : Tag.HoldsTag line)

include hvacant hline htag

end Line

end Finding

section Run

variable {answer : Path → Text → Except Fault Compilation} {configuration toolName : Text} {tree : FileTree}
  {files : List Path} (hvacant : ∀ copy ∈ copies toolName tree files, tree.Vacant copy)

include hvacant

end Run

end Checks

end CompileFail
