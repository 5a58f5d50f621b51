import CompileFail.Decimal.Shortest
import CompileFail.Duration
import CompileFail.Report

/-! The summary of a run: one line of text, or an object with the same facts for other programs. -/

namespace CompileFail

structure Summary where
  outcome : Outcome
  counts : Report.Counts
  /-- How long the run took, in seconds. -/
  elapsed : Float

namespace Summary

inductive Format where
  | text
  | json
deriving DecidableEq, Repr, Inhabited

def Format.default : Format := .text

/-- The summary of what a report has recorded so far. -/
def ofReport (r : Report) (elapsed : Duration) : Summary :=
  ⟨r.outcome, r.counts, elapsed.seconds⟩

def status : Outcome → Text
  | .passed => "OK"
  | .failed => "FAILED"
  | .technicalError => "ERROR"

/-- The colour of a status on a terminal. -/
def colour : Outcome → Text
  | .passed => "32"
  | .failed => "31"
  | .technicalError => "35"

/-- The name of an outcome in the object. -/
def outcomeName : Outcome → Text
  | .passed => "passed"
  | .failed => "failed"
  | .technicalError => "technical_error"

/-- The status, in bold and in colour if asked for. -/
def paintedStatus (outcome : Outcome) (inColour : Bool) : Text :=
  if inColour then
    ['\x1b', '['] ++ ("1;" : Text) ++ colour outcome ++ ['m'] ++ status outcome ++
      ['\x1b', '[', '0', 'm']
  else status outcome

def renderText (s : Summary) (inColour : Bool) : Text :=
  paintedStatus s.outcome inColour ++ [' '] ++ Text.ofNat s.counts.files ++
    (" files, " : Text) ++ Text.ofNat s.counts.passed ++ (" passed, " : Text) ++
    Text.ofNat s.counts.failed ++ (" failed, " : Text) ++ Text.ofNat s.counts.skipped ++
    (" skipped" : Text)

/-- A member of the object, on a line of its own. -/
def member (name value : Text) : Text :=
  ("  \"" : Text) ++ name ++ ("\": " : Text) ++ value

def renderJson (s : Summary) : Text :=
  let members : List Text :=
    [member "outcome" (['"'] ++ outcomeName s.outcome ++ ['"']),
     member "files" (Text.ofNat s.counts.files),
     member "passed" (Text.ofNat s.counts.passed),
     member "failed" (Text.ofNat s.counts.failed),
     member "skipped" (Text.ofNat s.counts.skipped),
     member "elapsed_secs" (Decimal.ofBits s.elapsed.toBits)]
  ['\x7b', '\n'] ++ [',', '\n'].intercalate members ++ ['\n', '\x7d']

def render (s : Summary) (format : Format) (inColour : Bool) : Text :=
  match format with
  | .text => s.renderText inColour
  | .json => s.renderJson

end Summary

end CompileFail
