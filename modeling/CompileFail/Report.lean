import CompileFail.Fault

/-! The report of a run: what is written to the two output streams, how many files and lines were
checked, and the outcome, which only ever gets worse. A report is built up from single steps, so
that every statement about a run is one about a list of steps. -/

namespace CompileFail

inductive Outcome where
  | passed
  | failed
  | technicalError
deriving DecidableEq, Repr

namespace Outcome

def exitCode : Outcome → Nat
  | passed => 0
  | failed => 1
  | technicalError => 2

/-- The worse of two outcomes. -/
def worse (a b : Outcome) : Outcome := if a.exitCode < b.exitCode then b else a

end Outcome

inductive Severity where
  | error
  | warning
  | message
deriving DecidableEq, Repr

def Severity.text : Severity → Text
  | error => "error"
  | warning => "warning"
  | message => "message"

namespace Report

/-- One line of the report on a failed check. -/
structure Line where
  severity : Severity
  message : Text
deriving DecidableEq, Repr

structure Counts where
  files : Nat := 0
  passed : Nat := 0
  failed : Nat := 0
  skipped : Nat := 0
deriving DecidableEq, Repr

inductive Step where
  | announce (file : Path)
  | pass
  | skip
  | failure (file : Path) (lineIndex : Nat) (lines : List Line)
  | technical (fault : Fault)
  | print (text : Text)
deriving DecidableEq, Repr

/-- The width of the column in which the severity stands. -/
def severityWidth : Nat := 7

def Line.render (file : Path) (lineIndex : Nat) (line : Line) : Text :=
  file.display ++ ['('] ++ Text.ofNat (lineIndex + 1) ++ ("): " : Text) ++
    Text.padRight severityWidth line.severity.text ++ (": " : Text) ++ line.message ++ ['\n']

end Report

/-- The state of a report. `out` and `err` hold what each step wrote, in order. -/
structure Report where
  titleRoot : Path
  outcome : Outcome := .passed
  counts : Report.Counts := {}
  announced : List Text := []
  out : List Text := []
  err : List Text := []
deriving Repr

namespace Report

def start (titleRoot : Path) : Report := { titleRoot := titleRoot }

/-- The path that a file is called by: that from the title root, if the file lies below it. -/
def titlePath (root file : Path) : Path :=
  match file.stripPrefix? root with
  | some rest => if rest.text.isEmpty then file else rest
  | none => file

/-- How a file is called. -/
def title (root file : Path) : Text := (titlePath root file).display

def announcement (title : Text) : Text :=
  ("    Processing " : Text) ++ title ++ ("...\n" : Text)

def add (r : Report) : Step → Report
  | .announce file =>
    let t := title r.titleRoot file
    if t ∈ r.announced then r
    else { r with
      announced := r.announced ++ [t]
      counts := { r.counts with files := r.counts.files + 1 }
      out := r.out ++ [announcement t] }
  | .pass => { r with counts := { r.counts with passed := r.counts.passed + 1 } }
  | .skip => { r with counts := { r.counts with skipped := r.counts.skipped + 1 } }
  | .failure file lineIndex lines =>
    { r with
      counts := { r.counts with failed := r.counts.failed + 1 }
      outcome := r.outcome.worse .failed
      err := r.err ++ [(lines.map (Line.render file lineIndex)).flatten] }
  | .technical fault =>
    { r with
      outcome := r.outcome.worse .technicalError
      err := r.err ++ [("ERROR: " : Text) ++ fault.message ++ ['\n']] }
  | .print text => { r with out := r.out ++ [text ++ ['\n']] }

/-- The report that the steps make, one after another. -/
def addAll (r : Report) (steps : List Step) : Report := steps.foldl add r

end Report

end CompileFail
