import CompileFail.Verifier

/-! All checks of a run. The files are read in order and give rise to units of work, one for each
tagged line; a file without tags is only announced. The units are done by a pool of threads. They are
independent of each other and go through steps of their own, between which others may take theirs. -/

namespace CompileFail

/-- The tag for which a copy of the file is compiled, if there is one. -/
def Verifier.applicable? (v : Verifier) (lines : List Text) (index : Nat) : Option Tag.Occurrence :=
  match Tag.scan (lines.getD index []) with
  | .occurrence o => if o.appliesTo v.configuration then some o else none
  | _ => none

namespace Checks

inductive Work where
  | announce (file : Path)
  | verify (file : Path) (lines : List Text) (index : Nat)
deriving DecidableEq, Repr

/-- The work that a file with a given text gives rise to. -/
def Work.ofText (file : Path) (text : Text) : List Work :=
  let lines := Text.splitLines text
  match Tag.taggedIndices lines with
  | [] => [.announce file]
  | tagged => tagged.map (.verify file lines)

/-- Reads a file; one that cannot be read is reported and gives rise to no work. -/
def submit (file : Path) : StateM Session (List Work) := do
  match (← get).tree.readText file with
  | .ok text => return Work.ofText file text
  | .error e =>
    modify (·.add (.reported (.technical (.fileRead file e))))
    return []

/-- A unit under way, by what has been done of it. -/
inductive Task where
  | due (work : Work)
  /-- The file is announced. -/
  | announced (file : Path) (lines : List Text) (index : Nat)
  /-- The copy is written. -/
  | copied (file : Path) (index : Nat) (occurrence : Tag.Occurrence) (content : Text)
  /-- There is a result, and the copy if it could be written. -/
  | compiled (file : Path) (index : Nat) (content : Option Text) (result : Except Fault Verdict)
  /-- The copy is removed. -/
  | settled (file : Path) (index : Nat) (result : Except Fault Verdict)

/-- The compilation of a copy and the judgement on it. -/
def compileCopy (v : Verifier) (file : Path) (index : Nat) (expected : Text) : Act Verdict := do
  let compilation ← Verifier.compile v.compiler (copyPath file index v.toolName)
  Act.inspect? fun _ => Verifier.judge file (copyPath file index v.toolName) expected compilation

namespace Task

/-- The next step of a unit: what is then left of it, if anything, and the session. -/
def step (v : Verifier) : Task → Session → Option Task × Session
  | .due (.announce file), s => (none, s.add (.reported (.announce file)))
  | .due (.verify file lines index), s =>
    (some (.announced file lines index), s.add (.reported (.announce file)))
  | .announced file lines index, s =>
    match v.applicable? lines index with
    | none =>
      let (result, s) := v.verifyLine file lines index s
      (some (.settled file index result), s)
    | some o =>
      let content := Tag.activate lines index o
      match Verifier.writeCopy (copyPath file index v.toolName) content s with
      | (.ok _, s) => (some (.copied file index o content), s)
      | (.error fault, s) => (some (.compiled file index none (.error fault)), s)
  | .copied file index o content, s =>
    let (result, s) := compileCopy v file index o.expected s
    (some (.compiled file index (some content) result), s)
  | .compiled file index _ result, s =>
    (some (.settled file index result), Verifier.removeCopy (copyPath file index v.toolName) s)
  | .settled file index result, s => (none, s.add (.reported (Verdict.step file index result)))

/-- Takes steps of a unit, at most so many; answers with what is then left of it. -/
def advance (v : Verifier) : (steps : Nat) → Task → StateM Session (Option Task)
  | 0, task => return some task
  | steps + 1, task => do
    match ← (task.step v : StateM Session (Option Task)) with
    | none => return none
    | some next => next.advance v steps

/-- The steps from the start of a unit to the copy. -/
def stepsToCopy : Nat := 2

/-- The steps of a unit from its start to its end. -/
def stepsToEnd : Nat := 5

/-- Takes all steps of a unit that are left. -/
def finish (v : Verifier) (task : Task) : StateM Session Unit := do
  let _ ← task.advance v stepsToEnd

end Task

/-- Begins units as long as threads are idle; each of these units gets as far as its copy. Answers with all
units that are not done. -/
def launch (v : Verifier) : (idle : Nat) → List Work → StateM Session (List Task)
  | 0, works => return works.map .due
  | _ + 1, [] => return []
  | idle + 1, work :: works => do
    match ← (Task.due work).advance v Task.stepsToCopy with
    | none => launch v (idle + 1) works
    | some task => return task :: (← launch v idle works)

/-- So many files are read while the other threads wake up. -/
def readAhead : Nat := 1000

/-- What the log is told at the start. -/
def opening (files : List Path) (workers : Nat) : Log.Entry :=
  ⟨.info, .checks,
    ("Checking " : Text) ++ Text.ofNat files.length ++ (" files with " : Text) ++
      Text.ofNat workers ++ (" workers" : Text)⟩

/-- Checks all files on a pool of threads, of which one reads the files. If this takes long, the others have
begun with their units before the last file is read. -/
def perform (v : Verifier) (files : List Path) (workers : Nat) : StateM Session Unit := do
  modify (·.add (.logged (opening files workers)))
  let late := files.drop readAhead
  let works ← (files.take readAhead).mapM submit
  let tasks ← launch v (if late.isEmpty then 0 else workers - 1) works.flatten
  let lateWorks ← late.mapM submit
  (tasks ++ lateWorks.flatten.map Task.due).forM (Task.finish v)

/-- Starts the pool and checks all files. The system may refuse to start the threads. -/
def run (threads : Nat → Option OsError) (v : Verifier) (files : List Path) (workers : Nat) : Act Unit :=
  match threads workers with
  | some cause => throw (.threadPool cause)
  | none => (perform v files workers : StateM Session Unit)

end Checks

end CompileFail
