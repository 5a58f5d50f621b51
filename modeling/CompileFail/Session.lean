import CompileFail.Build
import CompileFail.FileTree.Walk
import CompileFail.FileTree.Access
import CompileFail.Log
import CompileFail.Report

/-! A session is the state of a run: the file tree as it stands and everything that the run has
done so far, in order. What a run prints and what it leaves behind can be read off its session. -/

namespace CompileFail

inductive Event where
  | logged (entry : Log.Entry)
  | built (mode : Build.Mode)
  | touched (file : Path)
  | wrote (file : Path)
  /-- The compiler was asked about a file, which held the given text if it could be read. -/
  | compiled (file : Path) (content : Option Text)
  | removed (file : Path)
  | reported (step : Report.Step)
deriving DecidableEq, Repr

structure Session where
  tree : FileTree
  events : List Event := []

/-- A piece of a run: it changes the session and may fail. What it did before it failed stays. -/
abbrev Act (α : Type) := ExceptT Fault (StateM Session) α

namespace Session

def add (s : Session) (event : Event) : Session := { s with events := s.events ++ [event] }

/-- The steps of the report so far. -/
def steps (s : Session) : List Report.Step :=
  s.events.filterMap fun
    | .reported step => some step
    | _ => none

/-- The report so far, with titles as seen from a directory. -/
def report (s : Session) (titleRoot : Path) : Report := (Report.start titleRoot).addAll s.steps

end Session

namespace Act

def emit (event : Event) : Act Unit := modify (·.add event)

def log (level : Log.Level) (source : Log.Source) (message : Text) : Act Unit :=
  emit (.logged ⟨level, source, message⟩)

/-- Looks something up in the file tree. -/
def inspect {α : Type} (f : FileTree → α) : Act α := return f (← get).tree

/-- The result of a look-up that may fail. -/
def inspect? {α : Type} (f : FileTree → Except Fault α) : Act α := do
  liftExcept (f (← get).tree)
where
  /-- Fails as a given result does. -/
  liftExcept : Except Fault α → Act α
    | .ok a => pure a
    | .error fault => throw fault

/-- Does something that may change files. -/
def change {α : Type} (f : FileTree → Except Fault α × FileTree) : Act α := fun s =>
  ((f s.tree).1, { s with tree := (f s.tree).2 })

end Act

end CompileFail
