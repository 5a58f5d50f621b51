import CompileFail.Checks
import CompileFail.Proofs.LineCheck
import CompileFail.Proofs.TagToken

/-! The units of work of a run and what they come to. Reading the files gives rise to the same units and
complaints in every session with the same tree. If nothing stands at the paths of the copies, each unit
leaves the tree to the next one as it found it, so the report of a run that does one unit after the other is
put together from what the units report on their own. -/

namespace CompileFail.Checks

/-- A unit that is done without a break. -/
def Work.run (v : Verifier) : Work → StateM Session Unit
  | .announce file => modify (·.add (.reported (.announce file)))
  | .verify file lines index => v.settleLine file lines index

/-- The units that a file gives rise to; none if it cannot be read. -/
def worksOf (tree : FileTree) (file : Path) : List Work :=
  match tree.readText file with
  | .ok text => Work.ofText file text
  | .error _ => []

/-- What the reading of a file adds to the report. -/
def readingSteps (tree : FileTree) (file : Path) : List Report.Step :=
  match tree.readText file with
  | .ok _ => []
  | .error e => [.technical (.fileRead file e)]

/-- The copies that a unit may write. -/
def Work.copies (toolName : Text) : Work → List Path
  | .announce _ => []
  | .verify file _ index => [copyPath file index toolName]

/-- The paths of the copies of all files, one for each tagged line of a file that can be read. -/
def copies (toolName : Text) (tree : FileTree) (files : List Path) : List Path :=
  files.flatMap fun file => (worksOf tree file).flatMap (Work.copies toolName)

theorem copies_cons (toolName : Text) (tree : FileTree) (file : Path) (files : List Path) :
    copies toolName tree (file :: files) =
      (worksOf tree file).flatMap (Work.copies toolName) ++ copies toolName tree files :=
  List.flatMap_cons

/-- What a unit reports in a tree in which nothing stands at the path of its copy. -/
def Work.steps (v : Verifier) (tree : FileTree) : Work → List Report.Step
  | .announce file => [.announce file]
  | .verify file lines index => [.announce file, Verdict.step file index (v.finding tree file lines index)]

theorem worksOf_of_ok {tree : FileTree} {file : Path} {text : Text} (h : tree.readText file = .ok text) :
    worksOf tree file = Work.ofText file text := by
  rw [worksOf, h]

theorem worksOf_of_error {tree : FileTree} {file : Path} {e : OsError} (h : tree.readText file = .error e) :
    worksOf tree file = [] := by
  rw [worksOf, h]

theorem mem_ofText_iff {file : Path} {text : Text} {work : Work} :
    work ∈ Work.ofText file text ↔
      (Tag.taggedIndices (Text.splitLines text) = [] ∧ work = .announce file) ∨
      ∃ index ∈ Tag.taggedIndices (Text.splitLines text),
        work = .verify file (Text.splitLines text) index := by
  unfold Work.ofText
  dsimp only
  split
  · next hnone => simp [hnone]
  · next hsome =>
    rw [List.mem_map, or_iff_right (fun hnone => hsome hnone.1)]
    exact exists_congr fun index => and_congr_right fun _ => eq_comm

theorem submit_eq (file : Path) (s : Session) :
    submit file s = (worksOf s.tree file, s.addAll ((readingSteps s.tree file).map .reported)) := by
  unfold submit worksOf readingSteps
  simp only [bind, StateT.bind, get, getThe, MonadStateOf.get, StateT.get, pure]
  cases s.tree.readText file with
  | error e => rfl
  | ok text =>
      rw [List.map_nil, Session.addAll_nil]
      rfl

theorem steps_map_reported (steps : List Report.Step) : Event.steps (steps.map .reported) = steps := by
  induction steps with
  | nil => rfl
  | cons step steps ih => exact congrArg (step :: ·) ih

section Units

variable {v : Verifier} (hsteady : v.compiler.Steady)

include hsteady

end Units

end CompileFail.Checks
