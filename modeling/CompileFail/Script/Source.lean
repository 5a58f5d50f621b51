import CompileFail.Script.Grammar
import CompileFail.Script.Shell

/-! Running text: its commands are read and carried out one after another, so that each of them may
change how the next one is read. -/

namespace CompileFail.Script

/-- What commands are carried out with: a way to start programs and a way to run a command. -/
structure Means where
  launch : Launcher
  run : Command → Exec Nat

namespace Source

/-- What the larger shell says about an offence; `shown` is the line in which it is. -/
def richMessages (shown : Text) : Offence → List Text
  | .unexpected .endOfFile _ => ["syntax error: unexpected end of file"]
  | .unexpected token _ =>
    [("syntax error near unexpected token `" : Text) ++ token.spelling ++ ['\''],
      '`' :: shown ++ ['\'']]
  | .unterminated quote =>
    [("unexpected EOF while looking for matching `" : Text) ++ [quote, '\'']]
  | .other message => [message]

/-- Reports that a text, which begins at a line, cannot be read on; `label` says what the text is. -/
def complain (label text : Text) (first : Nat) (e : SyntaxError) : Exec Unit := do
  let sh ← get
  match sh.dialect with
  | .dash =>
    set { sh with line := e.line }
    Exec.complain (("Syntax error: " : Text) ++ e.offence.message)
  | .bash =>
    let shown := (Text.splitOn '\n' text).getD (e.line - first) []
    let name := if label.isEmpty then sh.name else sh.name ++ (": " : Text) ++ label
    (richMessages shown e.offence).forM fun message =>
      Exec.report (name ++ (": line " : Text) ++ Text.ofNat e.line ++ (": " : Text) ++ message)

/-- Says what is strange in a text that can be read after all. -/
def warn (warnings : List (Nat × Text)) : Exec Unit := do
  let name := (← get).name
  warnings.forM fun (line, message) =>
    Exec.report (name ++ (": line " : Text) ++ Text.ofNat line ++ (": warning: " : Text) ++ message)

/-- Carries out the commands that are still to be read, the text of which begins at a line; `fuel` is
more than their number. -/
def commands (m : Means) (label text : Text) (first : Nat) :
    (fuel : Nat) → Reader → (last : Nat) → Exec Nat
  | 0, _, last => return last
  | fuel + 1, r, last => do
    let sh ← get
    match Grammar.nextCommand.run { r with aliases := sh.aliases, fresh := sh.freshDocument } with
    | .error e => do
      complain label text first e
      throw (.failed 2)
    | .ok (command?, r') => do
      let read := r.rest.take (r.rest.length - r'.rest.length)
      if sh.isOn "verbose" then modify (·.writeTo 2 read)
      modify fun sh =>
        { sh with
          documents := r'.documents ++ sh.documents
          freshDocument := r'.fresh }
      if sh.isBash then warn r'.warnings
      let r' := { r' with documents := [], warnings := [] }
      match command? with
      | none => return last
      | some command => do
        let status ←
          tryCatch (m.run command) fun
            | .drop status => do
              modify ({ · with status := status })
              if (← get).isSubshell then throw (.drop status) else return status
            | flow => throw flow
        commands m label text first fuel r' status

/-- Carries out a text whose lines are counted from `first` on. Without commands it succeeds. -/
def run (m : Means) (label text : Text) (first : Nat) : Exec Nat := do
  let sh ← get
  commands m label text first (text.length + 2) { dialect := sh.dialect, rest := text, line := first } 0

/-- Carries out a trap. What it leaves as status does not count. -/
def runTrap (m : Means) (text : Text) : Exec Unit := do
  let sh ← get
  set { sh with tested := false, speaker := none }
  let _ ← run m "trap" text (if sh.isBash then sh.line else 1)
  modify fun after =>
    { after with status := sh.status, tested := sh.tested, speaker := sh.speaker, line := sh.line }

/-- Deals with the signals that have come. -/
def runTraps (m : Means) : Exec Unit := do
  let sh ← get
  if !sh.signals.isEmpty then
    set { sh with signals := [] }
    sh.signals.forM fun signal =>
      match sh.trap? signal with
      | some text => runTrap m text
      | none => throw (.killed signal)

/-- The end of a shell: it carries out the trap for that, and what it started beside itself is done
too. -/
def close (m : Means) (flow : Except Flow Nat) : Exec Nat := do
  let status ← match flow with
    | .ok status | .error (.exit status) | .error (.back status) | .error (.failed status)
    | .error (.drop status) => pure status
    | .error (.killed signal) => throw (.killed signal)
    | .error (.leave _) | .error (.next _) => pure 0
  modify ({ · with status := status, speaker := none, loops := 0 })
  let sh ← get
  let status ← match sh.trap? 0 with
    | none => pure status
    | some text => do
      set { sh with traps := sh.traps.filter (·.1 != 0), line := 1 }
      let act : Exec Nat := do
        runTrap m text
        return status
      tryCatch act fun
        | .exit status | .failed status | .drop status | .back status => pure status
        | .killed signal => throw (.killed signal)
        | .leave _ | .next _ => pure status
  modify fun sh =>
    let machine := sh.jobs.foldl (fun machine job => (job.work machine).2) sh.machine
    { sh with machine := machine, jobs := [] }
  return status

/-- The state in which a shell of its own starts inside of another one. -/
def forked (sh : Shell) : Shell :=
  { sh with
    isSubshell := true, jobs := [], ended := [], signals := []
    traps := sh.traps.filter fun (_, text) => text.isEmpty }

/-- Runs a command in a shell of its own, of which only its effects on the machine stay, and answers
with its wait status. -/
def inSubshell (m : Means) (body : Exec Nat) : Exec Nat := fun sh =>
  let place := sh.tree.workDir
  let (flow, inner) := body (forked sh)
  let (result, inner) := close m flow inner
  let machine := { inner.machine with tree := inner.tree.atDir place }
  let sh := { sh with machine := machine, freshDocument := inner.freshDocument }
  match result with
  | .ok status => (.ok (exitStatus status), sh)
  | .error (.killed signal) => (.error (.killed signal), sh)
  | .error _ => (.ok 0, sh)

/-- The status that a shell sees of a program that ended with a wait status. -/
def seenStatus (status : Nat) : Nat :=
  if status % 128 = 0 then status / 256 % 256 else 128 + status % 128

/-- What a command writes, and its status. -/
def capture (m : Means) (body : Exec Nat) : Exec (Octets × Nat) := do
  let sh ← get
  let (id, machine) := sh.machine.addPipe []
  set { sh with machine := machine, descriptors := sh.descriptors.set 1 id, tested := false }
  let status ← inSubshell m body
  let after ← get
  let out := after.machine.unread id
  set
    { after with
      machine := after.machine.dropStream id, descriptors := sh.descriptors, tested := sh.tested }
  return (out, seenStatus status)

end Source

end CompileFail.Script
