import CompileFail.Text.Blank

/-! Command lines under the quoting rules of Windows. Blanks separate arguments. A double quote
opens or closes a stretch in which blanks are kept. Backslashes are ordinary unless a quote follows
them: then each two of them stand for one, and an odd one makes the quote ordinary. -/

namespace CompileFail.CommandLine

/-- How far a command line has been read. -/
structure Reader where
  args : List Text := []
  /-- The argument in progress. -/
  current : Option Text := none
  quoted : Bool := false
  /-- Backslashes at the end that are not yet known to stand before a quote. -/
  backslashes : Nat := 0
deriving DecidableEq, Repr

namespace Reader

/-- The argument in progress with its last backslashes as they stand. -/
def flushed (r : Reader) : Text := r.current.getD [] ++ List.replicate r.backslashes '\\'

def step (r : Reader) (c : Char) : Reader :=
  if c = '\\' then
    { r with current := some (r.current.getD []), backslashes := r.backslashes + 1 }
  else if c = '"' then
    let halved := r.current.getD [] ++ List.replicate (r.backslashes / 2) '\\'
    if r.backslashes % 2 = 1 then { r with current := some (halved ++ ['"']), backslashes := 0 }
    else { r with current := some halved, quoted := !r.quoted, backslashes := 0 }
  else if isBlank c && !r.quoted then
    match r.current with
    | none => r
    | some _ => { r with args := r.args ++ [r.flushed], current := none, backslashes := 0 }
  else { r with current := some (r.flushed ++ [c]), backslashes := 0 }

/-- All arguments, an unfinished one included. -/
def finish (r : Reader) : List Text :=
  match r.current with
  | none => r.args
  | some _ => r.args ++ [r.flushed]

end Reader

def split (line : Text) : List Text := (line.foldl Reader.step {}).finish

end CompileFail.CommandLine
