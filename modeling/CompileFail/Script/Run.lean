import CompileFail.Regex.Search
import CompileFail.Script.Calling
import CompileFail.Script.Tracing

/-! Running the commands of scripts. A command is carried out with the means to carry out those
inside of it; how deep that may go is limited, and so are the rounds of loops. -/

namespace CompileFail.Script.Run

/-- Rounds that a loop takes at most before it counts as one without an end. -/
def roundLimit : Nat := Nat.pow 10 7

/-- Runs a round of a loop; answers with its status and whether the loop goes on. -/
def round (body : Exec Nat) : Exec (Nat × Bool) := fun sh =>
  let (result, sh) := body sh
  match result with
  | .ok status => (.ok (status, true), sh)
  | .error (.leave (n + 2)) => (.error (.leave (n + 1)), sh)
  | .error (.leave _) => (.ok (0, false), sh)
  | .error (.next (n + 2)) => (.error (.next (n + 1)), sh)
  | .error (.next _) => (.ok (0, true), sh)
  | .error flow => (.error flow, sh)

/-- Runs something inside of one more loop. -/
def inLoop {α : Type} (body : Exec α) : Exec α :=
  Exec.afterwards (do
    modify fun sh => { sh with loops := sh.loops + 1 }
    body) fun before after => { after with loops := before.loops }

/-- Repeats a body as long as a condition holds; `last` is the status of the round before. -/
def repeating (condition : Exec (Nat × Bool)) (sense : Bool) (body : Exec (Nat × Bool)) :
    (rounds : Nat) → (last : Nat) → Exec Nat
  | 0, _ => throw (.killed 9)
  | rounds + 1, last => do
    let (status, goesOn) ← condition
    if !goesOn then return 0
    else if (status == 0) != sense then return last
    else
      let (status, goesOn) ← body
      if goesOn then repeating condition sense body rounds status else return status

/-- Runs a body for each of some values. -/
def forEach (before : Text → Exec Unit) (body : Exec (Nat × Bool)) : List Text → (last : Nat) →
    Exec Nat
  | [], last => return last
  | value :: rest, _ => do
    before value
    let (status, goesOn) ← body
    if goesOn then forEach before body rest status else return status

/-- Whether the words so far name a builtin that takes assignments as arguments. -/
def takesAssignments (sh : Shell) (fields : List Text) : Bool :=
  let rec behind : List Text → Option Text
    | [] => none
    | name :: rest =>
      if name = ("command" : Text) ∨ name = ['-', 'p'] ∨ name = ['-', '-'] ∨
          (sh.isBash ∧ name = ("builtin" : Text)) then behind rest
      else some name
  match behind fields with
  | none => false
  | some name =>
    let shared : List Text := ["export", "readonly", "local"]
    let rich : List Text := ["declare", "typeset"]
    (shared.contains name || sh.isBash && rich.contains name) &&
      !sh.functions.any (·.1 == name)

/-- A word without the list of an array at its end, and the words of the list. -/
def cutElements? (w : Word) : Option (Word × List Word) :=
  match w.getLast? with
  | some (.elements words) => some (w.dropLast, words)
  | _ => none

/-- Gives an array the elements that words stand for; some of them may say at which index. -/
def assignElements (m : Means) (name : Text) (append : Bool) (words : List Word) : Exec Unit := do
  Exec.checkWritable name
  let old := (← get).vars.value? name
  let keyed := match old with
    | some (.keyed _) => true
    | _ => false
  if !append then modify fun sh =>
    { sh with vars := sh.vars.setValue name (if keyed then .keyed [] else .indexed []) }
  else modify fun sh =>
    { sh with
      vars := sh.vars.setValue name (if keyed then old.getD (.keyed []) else
        .indexed (Value.elements old)) }
  words.forM fun w => do
    match indexed? w with
    | some (index, value) => do
      let key ← Expansion.textOf m .never index
      let s ← Expansion.textOf m .inValue value
      Exec.assignElement name key s false
    | none => do
      let values ← Expansion.fieldsOf m .atStart [w]
      values.forM fun s => do
        let next := Value.nextIndex ((← get).elements name)
        Exec.assignElement name (Text.ofNat next) s false
where
  /-- An element with its index in brackets in front. -/
  indexed? (w : Word) : Option (Word × Word) :=
    match w with
    | .chars ('[' :: text) false :: rest =>
      let inner : Word := if text.isEmpty then rest else .chars text false :: rest
      match Word.assignment?.splitIndex? inner with
      | some (index, .chars ('=' :: value) false :: rest) =>
        some (index, Word.assignment?.joined value rest)
      | _ => none
    | _ => none

/-- Carries out an assignment; answers with how it is traced. -/
def assign (m : Means) : Assignment → Exec Text
  | .mk name index append value => do
    match index, cutElements? value with
    | none, some (_, words) => do
      assignElements m name append words
      let shown := (← get).elements name
      return name ++ ("=(" : Text) ++
        [' '].intercalate (shown.map fun (_, s) => Tracing.shown s) ++ [')']
    | none, none => do
      let s ← Expansion.textOf m .inValue value
      let sh ← get
      match sh.vars.value? name with
      | some (.indexed _) | some (.keyed _) => Exec.assignElement name ['0'] s append
      | _ => Exec.assignOrAppend name append s
      return Tracing.assignment sh (if append then name ++ ['+'] else name) s
    | some index, _ => do
      let key ← Expansion.textOf m .never index
      let s ← Expansion.textOf m .inValue value
      Exec.assignElement name key s append
      return Tracing.assignment (← get) (name ++ '[' :: key ++ [']']) s

/-- The fields of the words of a command. A builtin that takes assignments gets them whole; arrays
that are given to it are kept for afterwards. -/
def commandFields (m : Means) (words : List Word) : Exec (List Text × List Assignment) := do
  match words with
  | [] => return ([], [])
  | first :: rest => do
    let sh ← get
    let start ← Expansion.fieldsOf m .atStart [first]
    rest.foldlM (fun (done : List Text × List Assignment) w => do
      let (fields, later) := done
      match if takesAssignments sh fields then Word.assignment? sh.dialect w else none with
      | some (.mk name index append value) =>
        match index, cutElements? value with
        | none, some _ => return (fields ++ [name], later ++ [.mk name none append value])
        | _, _ => return (fields ++ [← Expansion.textOf m .inAssignment w], later)
      | none => do
        let tilde :=
          if sh.isBash && (Word.assignment? .bash w).isSome then Tilde.inAssignment else .atStart
        return (fields ++ (← Expansion.fieldsOf m tilde [w]), later)) (start, [])

/-- Puts the variables of assignments back as they were. -/
def restoring (assignments : List Assignment) (before after : Shell) : Shell :=
  { after with
    vars := assignments.foldl (fun vars (.mk name _ _ _) =>
      vars.restore name (before.vars.find? name)) after.vars }

/-- A command of words: assignments, a name and arguments. -/
def simple (m : Means) (line : Nat) (assignments : List Assignment) (words : List Word)
    (redirections : List Redirection) : Exec Nat := do
  modify fun sh => { sh with line := line, substituted := false }
  let (fields, later) ← commandFields m words
  let sh ← get
  let name := fields.headD []
  let isFunction := sh.functions.any (·.1 == name)
  let special := !fields.isEmpty && Builtin.isSpecial name && !isFunction
  let act : Exec Nat := do
    let target := sh.descriptors.get? 2
    let failure ← if redirections.isEmpty then pure none else Redirecting.apply m redirections
    match failure with
    | some status => if special && !sh.isBash then throw (.failed status) else return status
    | none => do
      let before ← get
      let lasting := fields.isEmpty || special && !sh.isBash
      let assigned ← assignments.mapM (assign m)
      Tracing.command m target assigned fields
      if fields.isEmpty then
        let after ← get
        return if after.substituted then after.status else 0
      else
        let names := assignments.map fun (.mk name _ _ _) => name
        if !lasting || name = ("exec" : Text) then modify fun sh =>
          { sh with vars := names.foldl Variables.exporting sh.vars }
        let call := Calling.call m (fields.length + 1) {} fields
        let status ← if lasting || assignments.isEmpty then call
          else Exec.afterwards call fun _ after => restoring assignments before after
        later.forM fun assignment => do
          let _ ← assign m assignment
        return status
  if redirections.isEmpty then act
  else if fields.length = 1 ∧ name = ("exec" : Text) then act
  else Redirecting.undoing redirections act

/-- Whether a text fits one of the patterns of a case. -/
def fitsAny (m : Means) (subject : Text) : List Word → Exec Bool
  | [] => return false
  | w :: rest => do
    let p ← Expansion.patternOf m w
    if Pattern.fits (Expansion.style (← get)) p subject then return true
    else fitsAny m subject rest

/-- Runs the first case that a text fits; with `through` the next one in any case. -/
def cases (m : Means) (subject : Text) : (through : Bool) → (last : Nat) →
    List (List Word × Command × CaseEnd) → Exec Nat
  | _, last, [] => return last
  | through, last, (patterns, body, ending) :: rest => do
    if ← (if through then pure true else fitsAny m subject patterns) then
      let status ← m.run body
      match ending with
      | .stop => return status
      | .fallThrough => cases m subject true status rest
      | .lookOn => cases m subject false status rest
    else cases m subject false last rest

/-- Runs stages one after another, each with the output of the one before as its input; answers with
all statuses. -/
def stages (m : Means) : List Command → Exec (List Nat)
  | [] => return []
  | [last] => return [Source.seenStatus (← Source.inSubshell m (m.run last))]
  | stage :: rest => do
    let sh ← get
    let (id, machine) := sh.machine.addPipe []
    set { sh with machine := machine, descriptors := sh.descriptors.set 1 id }
    let status ← Source.inSubshell m (m.run stage)
    modify fun after => { after with descriptors := sh.descriptors.set 0 id }
    return Source.seenStatus status :: (← stages m rest)

def pipeline (m : Means) (commands : List Command) : Exec Nat := do
  let statuses ← Exec.withDescriptors (stages m commands)
  modify ({ · with stages := statuses })
  if (← get).isOn "pipefail" then
    return (statuses.reverse.find? (· != 0)).getD 0
  else return statuses.getLast?.getD 0

/-- Starts a command beside the shell. -/
def background (m : Means) (command : Command) : Exec Nat := do
  let sh ← get
  let number := 30000 + sh.machine.fresh
  let (input, machine) := sh.machine.addPipe []
  let place := sh.tree.workDir
  let inner := { sh with descriptors := sh.descriptors.set 0 input }
  let work (machine : Machine) : Nat × Machine :=
    let (result, after) := Source.inSubshell m (m.run command)
      { inner with machine := { machine with tree := machine.tree.atDir place } }
    (match result with
      | .ok status => status
      | .error _ => 0, after.machine)
  set { sh with
    machine := machine, jobs := sh.jobs ++ [Job.mk number work], lastJob := some number }
  return 0

/-- The number of an operand in a test. -/
def operand (m : Means) (w : Word) : Exec Int := do
  Exec.calculate [] (← Expansion.textOf m .atStart w)

/-- The text of a pattern as a regular expression, in which quoted characters stand for themselves. -/
def expressionText (p : Pattern) : Text :=
  p.flatMap fun g =>
    if g.quoted && !g.char.isAlphanum && g.char.toNat < 128 then ['\\', g.char] else [g.char]

/-- Whether a test in double brackets holds; answers also with how it is traced. -/
def holds (m : Means) : Test → Exec Bool
  | .word w => do
    let s ← Expansion.textOf m .atStart w
    trace ("-n " ++ String.ofList (Tracing.shown s))
    return !s.isEmpty
  | .unary op w => do
    let s ← Expansion.textOf m .atStart w
    trace (String.ofList (op ++ ' ' :: Tracing.shown s))
    let sh ← get
    if op = ['-', 'o'] then return sh.isOn s
    else
      let isSet (name : Text) : Bool :=
        (sh.value? name).isSome || !(sh.elements (name.takeWhile (· != '['))).isEmpty
      match Condition.unary ⟨.bash, sh.tree, isSet⟩ op s with
      | .ok b => return b
      | .error _ => return false
  | .binary left op right => do
    let a ← Expansion.textOf m .atStart left
    let p ← Expansion.patternOf m right
    let b := p.text
    trace (String.ofList (Tracing.plain a ++ ' ' :: op ++ ' ' :: b))
    let sh ← get
    let style : PatternStyle := { caret := true, groups := true }
    match String.ofList op with
    | "=" | "==" => return Pattern.fits style p a
    | "!=" => return !Pattern.fits style p a
    | "=~" =>
      match Regex.ofText .extended true (sh.isOn "nocasematch") (expressionText p) with
      | .error _ => throw (.failed 2)
      | .ok r =>
        match r.search a with
        | none => do
          modify fun sh => { sh with vars := sh.vars.setValue "BASH_REMATCH" (.indexed []) }
          return false
        | some find => do
          let groups := (List.range (r.groups + 1)).map (find.group a)
          Exec.assignList "BASH_REMATCH" groups
          return true
    | "<" => return decide (a < b)
    | ">" => return decide (b < a)
    | _ =>
      match Condition.comparison? op with
      | some compare => return compare (← Exec.calculate "[[: " a) (← Exec.calculate "[[: " b)
      | none =>
        match Condition.binary ⟨.bash, sh.tree, fun _ => false⟩ a op b with
        | .ok b => return b
        | .error _ => return false
  | .negation test => return !(← holds m test)
  | .both first second => do
    if ← holds m first then holds m second else return false
  | .either first second => do
    if ← holds m first then return true else holds m second
where
  /-- Shows a test. -/
  trace (s : String) : Exec Unit := do
    Tracing.line m ((← get).descriptors.get? 2) ("[[ " ++ s ++ " ]]").toList

/-- Whether a command that fails may end the shell. -/
def isChecked : Command → Bool
  | .simple .. | .pipeline _ | .background _ | .subshell .. | .test .. | .evaluation .. => true
  | _ => false

/-- Does what a command says. -/
def perform (m : Means) : Command → Exec Nat
  | .simple line assignments words redirections => simple m line assignments words redirections
  | .sequence commands => commands.foldlM (fun _ command => m.run command) 0
  | .pipeline commands => pipeline m commands
  | .background command => background m command
  | .negation command => do
    return if (← Exec.testing (m.run command)) = 0 then 1 else 0
  | .both first second => do
    let status ← Exec.testing (m.run first)
    if status = 0 then m.run second else return status
  | .either first second => do
    let status ← Exec.testing (m.run first)
    if status = 0 then return 0 else m.run second
  | .branch condition body otherwise => do
    let status ← Exec.testing (m.run condition)
    if status = 0 then m.run body else m.run otherwise
  | .repetition sense condition body =>
    inLoop (repeating (round (Exec.testing (m.run condition))) sense (round (m.run body))
      roundLimit 0)
  | .each line name words body => do
    modify ({ · with line := line })
    let sh ← get
    let values ← match words with
      | some words => Expansion.fieldsOf m .atStart words
      | none => pure sh.args
    let before (value : Text) : Exec Unit := do
      if sh.isBash then
        Tracing.line m (sh.descriptors.get? 2)
          (("for " : Text) ++ name ++ (" in " : Text) ++ [' '].intercalate values)
      Exec.assign name value
    inLoop (forEach before (round (m.run body)) values 0)
  | .counting line start condition step body => do
    modify ({ · with line := line })
    let value (w : Word) : Exec Int := do
      let s ← Expansion.textOf m .never w
      if s.all Arithmetic.isBlank then return 1 else Exec.calculate "((: " s
    let _ ← value start
    let test : Exec (Nat × Bool) := do return (if (← value condition) = 0 then 1 else 0, true)
    let stepped : Exec (Nat × Bool) := do
      let (status, goesOn) ← round (m.run body)
      if goesOn then
        let _ ← value step
      return (status, goesOn)
    inLoop (repeating test true stepped roundLimit 0)
  | .choice line subject options => do
    modify ({ · with line := line })
    let sh ← get
    if sh.isBash then
      Tracing.line m (sh.descriptors.get? 2)
        (("case " : Text) ++ Redirecting.written subject ++ (" in" : Text))
    cases m (← Expansion.textOf m .atStart subject) false 0 options
  | .subshell line body => do
    modify ({ · with line := line })
    return Source.seenStatus (← Source.inSubshell m (m.run body))
  | .definition name body => do
    modify fun sh => { sh with functions := (name, body) :: sh.functions.filter (·.1 != name) }
    return 0
  | .redirected line body redirections => do
    modify ({ · with line := line })
    Redirecting.undoing redirections do
      match ← Redirecting.apply m redirections with
      | some status => return status
      | none => m.run body
  | .test line test => do
    modify ({ · with line := line })
    tryCatch (do return if ← holds m test then 0 else 1) fun
      | .failed status => pure status
      | flow => throw flow
  | .evaluation line expression => do
    modify ({ · with line := line })
    let s ← Expansion.textOf m .never expression
    Tracing.line m ((← get).descriptors.get? 2) (("(( " : Text) ++ s ++ (" ))" : Text))
    tryCatch (do return if (← Exec.calculate "((: " s) = 0 then 1 else 0) fun
      | .drop status => pure status
      | flow => throw flow

/-- Runs a command with given means, answers with its status and keeps that for later use. A failure
that nobody looks at ends the shell, if it is set to that. -/
def step (m : Means) (command : Command) : Exec Nat := do
  let status ← if (← get).isOn "noexec" then pure (← get).status else perform m command
  modify ({ · with status := status })
  let sh ← get
  if !sh.signals.isEmpty then Source.runTraps m
  if status ≠ 0 && !sh.tested && isChecked command then
    if sh.isBash then
      match sh.trap? Builtin.trapLine.errorTrap with
      | some text => if sh.callers.isEmpty then Source.runTrap m text
      | none => pure ()
    if sh.isOn "errexit" then throw (.exit status)
  if sh.isBash && command matches .simple .. | .test .. | .evaluation .. | .subshell .. then
    modify ({ · with stages := [status] })
  return status

/-- Runs a command; more than `depth` commands inside of each other are too many. -/
def command (launch : Launcher) : (depth : Nat) → Command → Exec Nat
  | 0, _ => throw (.killed 11)
  | depth + 1, c => step ⟨launch, command launch depth⟩ c

/-- How deep commands may be inside of each other, functions that call each other included. -/
def depthLimit : Nat := 20000

def means (launch : Launcher) : Means := ⟨launch, command launch depthLimit⟩

/-- Runs the text of a script to its end; answers with the wait status. -/
def script (launch : Launcher) (text : Text) (sh : Shell) : Nat × Machine :=
  let m := means launch
  let (flow, sh) := Source.run m [] text 1 sh
  let (result, sh) := Source.close m flow sh
  (match result with
    | .ok status => exitStatus status
    | .error (.killed signal) => signal
    | .error _ => 0, sh.machine)

end CompileFail.Script.Run
