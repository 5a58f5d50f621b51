import CompileFail.Script.Builtin.Basic
import CompileFail.Script.Source

/-! Builtins that change where a script goes on: loops and functions are left, shells are ended,
signals are sent and waited for. -/

namespace CompileFail.Script.Builtin

/-- The status that an argument asks for; without one it is that of the last command. -/
def statusOf (args : List Text) : Exec Nat := do
  let sh ← get
  match args with
  | [] => return sh.status
  | arg :: _ =>
    match sh.dialect with
    | .dash => return (← number arg) % 256
    | .bash =>
      match arg with
      | '-' :: digits =>
        match Text.toNat? digits with
        | some n => return (256 - n % 256) % 256
        | none => wrong arg
      | _ =>
        match Text.toNat? arg with
        | some n => return n % 256
        | none => wrong arg
where
  /-- The larger shell goes on to its end in any case. -/
  wrong (arg : Text) : Exec Nat := do
    Exec.complain (arg ++ (": numeric argument required" : Text))
    return 2

def exiting : Builtin := fun args => do
  if (← get).isBash ∧ args.length > 1 ∧ (args.head?.bind Text.toNat?).isSome then
    Exec.fail "too many arguments" 1
  else throw (.exit (← statusOf args))

def returning : Builtin := fun args => do
  let sh ← get
  if sh.isBash ∧ sh.callers.isEmpty ∧ sh.sources = 0 then
    Exec.fail "can only `return' from a function or sourced script" 2
  else throw (.back (← statusOf args))

/-- How many loops an argument means. -/
def loopCount (name : Text) (args : List Text) : Exec Nat := do
  let sh ← get
  match args, sh.dialect with
  | [], _ => return min 1 sh.loops
  | arg :: _, .dash => do
    let n ← number arg
    if n = 0 then Exec.fail (("Illegal number: " : Text) ++ arg) else return min n sh.loops
  | arg :: _, .bash =>
    match Text.toNat? arg with
    | some 0 => Exec.fail (arg ++ (": loop count out of range" : Text)) 1
    | some n => return min n sh.loops
    | none => do
      Exec.complain (arg ++ (": numeric argument required" : Text))
      throw (.exit (if name.isEmpty then 1 else 128))

/-- Complains in the larger shell if there is no loop. -/
def outside : Exec Nat := do
  if (← get).isBash then
    Exec.complain "only meaningful in a `for', `while', or `until' loop"
  return 0

def leaving : Builtin := fun args => do
  let loops ← loopCount "break" args
  if loops = 0 then outside else throw (.leave loops)

def continuing : Builtin := fun args => do
  let loops ← loopCount "continue" args
  if loops = 0 then outside else throw (.next loops)

/-- A command that sets a trap. -/
def trapLine (sh : Shell) (signal : Nat) (text : Text) : Text :=
  let name := signalName signal
  let shown := if sh.isBash ∧ signal ≠ 0 ∧ signal < 65 then ("SIG" : Text) ++ name
    else if signal = errorTrap then "ERR" else if signal = debugTrap then "DEBUG"
    else if signal = returnTrap then "RETURN" else name
  ("trap -- " : Text) ++ quotedFor sh text ++ ' ' :: shown
where
  /-- Numbers of the traps that are no signals. -/
  errorTrap : Nat := 66
  debugTrap : Nat := 67
  returnTrap : Nat := 68
  /-- The text in quotes. -/
  quotedFor (sh : Shell) (s : Text) : Text :=
    if sh.isBash then
      '\'' :: s.flatMap (fun c => if c = '\'' then ("'\\''" : Text) else [c]) ++ ['\'']
    else quoted s

/-- The trap of a name: a signal, the end of the shell, or in the larger shell an event. -/
def trapOf? (sh : Shell) (s : Text) : Option Nat :=
  match signal? sh.dialect 0 s with
  | some n => some n
  | none =>
    if !sh.isBash then none
    else match String.ofList (s.map Char.toUpper) with
      | "ERR" => some trapLine.errorTrap
      | "DEBUG" => some trapLine.debugTrap
      | "RETURN" => some trapLine.returnTrap
      | _ => none

def trapping : Builtin := fun args => do
  let sh ← get
  let args := if args.head? = some ['-', '-'] then args.drop 1 else args
  let ordered := sh.traps.mergeSort fun a b => a.1 ≤ b.1
  let isNumber (s : Text) : Bool := ((Text.toNat? s).filter (· < 65)).isSome
  match args with
  | [] => do
    ordered.forM fun (signal, text) => Exec.printLine (trapLine sh signal text)
    return 0
  | ['-', 'p'] :: names => do
    if sh.isBash then
      let wanted := names.filterMap (trapOf? sh)
      ordered.forM fun (signal, text) => do
        if names.isEmpty || wanted.contains signal then Exec.printLine (trapLine sh signal text)
      return 0
    else Exec.fail "Illegal option -p"
  | ['-', 'l'] :: _ => return 0
  | first :: rest => do
    let (action, names) :=
      if rest.isEmpty || isNumber first then (none, args)
      else (if first = ['-'] then none else some first, rest)
    setAll action names
where
  /-- Sets or takes away the traps of names up to the first that is none. -/
  setAll (action : Option Text) : List Text → Exec Nat
    | [] => return 0
    | name :: rest => do
      let sh ← get
      match trapOf? sh name with
      | none => do
        if sh.isBash then Exec.complain (name ++ (": invalid signal specification" : Text))
        else Exec.report (("trap: " : Text) ++ name ++ (": bad trap" : Text))
        return 1
      | some signal => do
        let others := sh.traps.filter (·.1 != signal)
        set { sh with traps := match action with
          | some text => (signal, text) :: others
          | none => others }
        setAll action rest

/-- Sends a signal to a process. -/
def send (m : Means) (signal : Nat) (target : Text) : Exec Bool := do
  let sh ← get
  let process ← match target with
    | '%' :: '%' :: _ | ['%'] | '%' :: '+' :: _ => pure (sh.jobs.getLast?.map (·.number))
    | '%' :: digits =>
      pure ((Text.toNat? digits).bind fun n => (sh.jobs[n - 1]?).map (·.number))
    | '-' :: digits => do
      if sh.isBash then pure (Text.toNat? digits) else pure (some (← number digits))
    | _ => do
      if sh.isBash then pure (Text.toNat? target) else pure (some (← number target))
  match process with
  | none => do
    Exec.complain (target ++ (": arguments must be process or job IDs" : Text))
    return false
  | some n =>
    if n = sh.number ∨ n = 0 then
      if signal = 0 then return true
      else match sh.trap? signal with
        | some [] =>
          if signal = 9 ∨ signal = 19 then throw (.killed signal) else return true
        | some _ =>
          if signal = 9 ∨ signal = 19 then throw (.killed signal)
          else
            set { sh with signals := sh.signals ++ [signal] }
            return true
        | none =>
          if [17, 18, 23, 28].contains signal then return true
          else
            if sh.isBash ∧ signal ≠ 9 then runExitTrap
            throw (.killed signal)
    else if sh.jobs.any (·.number == n) then
      if signal ≠ 0 then
        set { sh with
          jobs := sh.jobs.filter (·.number != n)
          ended := (n, signal) :: sh.ended }
      return true
    else
      if sh.isBash then
        Exec.complain (['('] ++ target ++ (") - No such process" : Text))
      else Exec.complain "No such process\n"
      return false
where
  /-- The larger shell carries out the trap for its end also if a signal ends it. -/
  runExitTrap : Exec Unit := do
    match (← get).trap? 0 with
    | some text => do
      modify fun sh => { sh with traps := sh.traps.filter (·.1 != 0) }
      Source.runTrap m text
    | none => return

/-- The signal that the arguments begin with, if they do, and the targets. -/
def signalArgument (sh : Shell) (args : List Text) : Exec (Nat × List Text) := do
  match args with
  | ['-', 's'] :: name :: rest | ['-', 'n'] :: name :: rest =>
    match signal? sh.dialect (if sh.isBash then 0 else 1) name with
    | some n => return (n, rest)
    | none =>
      if sh.isBash then Exec.fail (name ++ (": invalid signal specification" : Text)) 1
      else if name = ['0'] then return (0, rest)
      else Exec.fail (("invalid signal number or name: " : Text) ++ name)
  | ['-', '-'] :: rest => return (15, rest)
  | ('-' :: name) :: rest =>
    if name = ['0'] then return (0, rest)
    else match signal? sh.dialect 1 name with
      | some n => return (n, rest)
      | none =>
        if sh.isBash then Exec.fail (name ++ (": invalid signal specification" : Text)) 1
        else Exec.fail (("Illegal option -" : Text) ++ name.take 1)
  | _ => return (15, args)

def killing (m : Means) : Builtin := fun args => do
  let sh ← get
  match args with
  | [] => usage
  | ['-', 'l'] :: rest | ['-', 'L'] :: rest =>
    match rest with
    | [] => do
      if !sh.isBash then Exec.printLine ['0']
      (signalNames.filter fun name => !sh.isBash || !name.toList.head?.any Char.isDigit).forM
        fun name => Exec.printLine name.toList
      return 0
    | arg :: _ =>
      match Text.toNat? arg, sh.dialect with
      | some n, _ => do
        let n := if n > 128 then n - 128 else n
        if 0 < n ∧ n < 65 then
          Exec.printLine (signalName n)
          return 0
        else Exec.fail (("invalid signal number or exit status: " : Text) ++ arg)
      | none, .bash =>
        match signal? .bash 0 arg with
        | some n => do
          Exec.printLine (Text.ofNat n)
          return 0
        | none => Exec.fail (arg ++ (": invalid signal specification" : Text)) 1
      | none, .dash => Exec.fail (("Illegal number: " : Text) ++ arg)
  | _ => do
    let (signal, targets) ← signalArgument sh args
    if targets.isEmpty then usage
    else
      let results ← targets.mapM (send m signal)
      return if results.all id then 0 else 1
where
  /-- How it is to be used. -/
  usage : Exec Nat := do
    if (← get).isBash then
      Exec.report ("kill: usage: kill [-s sigspec | -n signum | -sigspec] pid | jobspec ... or " ++
        "kill -l [sigspec]").toList
      return 2
    else
      Exec.fail ("Usage: kill [-s sigspec | -signum | -sigspec] [pid | job]... or\n" ++
        "kill -l [exitstatus]").toList

/-- Lets a job do its work. -/
def finish (job : Job) : Exec Nat := do
  let sh ← get
  let (status, machine) := job.work sh.machine
  set { sh with
    machine := { machine with tree := machine.tree.atDir sh.tree.workDir }
    jobs := sh.jobs.filter (·.number != job.number)
    ended := (job.number, status) :: sh.ended }
  return status

def waiting : Builtin := fun args => do
  let targets := args.filter fun arg => !(arg.head? == some '-')
  if targets.isEmpty then
    let statuses ← (← get).jobs.mapM finish
    if args.contains ['-', 'n'] then
      match statuses with
      | [] => return 127
      | status :: _ => return Source.seenStatus status
    else return 0
  else
    let statuses ← targets.mapM fun target => do
      let sh ← get
      let number ← match target with
        | '%' :: digits =>
          pure ((Text.toNat? digits).bind fun n => (sh.jobs[n - 1]?).map (·.number))
        | _ =>
          match Text.toNat? target, sh.dialect with
          | some n, _ => pure (some n)
          | none, .dash => Exec.fail (("Illegal number: " : Text) ++ target)
          | none, .bash => do
            Exec.complain ('`' :: target ++ ("': not a pid or valid job spec" : Text))
            pure none
      match number with
      | none => return 127
      | some n =>
        match sh.jobs.find? (·.number == n), sh.ended.find? (·.1 == n) with
        | some job, _ => return Source.seenStatus (← finish job)
        | none, some (_, status) => return Source.seenStatus status
        | none, none => do
          if sh.isBash then
            Exec.complain (("pid " : Text) ++ target ++ (" is not a child of this shell" : Text))
          return 127
    return statuses.getLast?.getD 0

/-- The rights that letters stand for. -/
def rightsOf (s : Text) : Option Nat :=
  s.foldlM (fun n c =>
    match c with
    | 'r' => some (n ||| 4)
    | 'w' => some (n ||| 2)
    | 'x' => some (n ||| 1)
    | _ => none) 0

/-- Changes rights by a clause of letters. -/
def changeRights (present : Nat) (clause : Text) : Option Nat := do
  let who := clause.takeWhile ("ugoa".toList.contains ·)
  let who := if who.isEmpty || who.any (· == 'a') then "ugo".toList else who
  match clause.dropWhile ("ugoa".toList.contains ·) with
  | sign :: letters => do
    let rights ← rightsOf letters
    let factors := who.map fun c => if c = 'u' then 64 else if c = 'g' then 8 else 1
    factors.foldlM (fun all factor =>
      let old := all / factor % 8
      let new? := match sign with
        | '=' => some rights
        | '+' => some (old ||| rights)
        | '-' => some (old &&& (7 - rights))
        | _ => none
      new?.map fun new => all - old * factor + new * factor) present
  | [] => none

def umask : Builtin := fun args => do
  let sh ← get
  match args with
  | [] => do
    let digits := Nat.toDigits 8 sh.mask
    Exec.printLine (List.replicate (4 - digits.length) '0' ++ digits)
    return 0
  | ['-', 'S'] :: _ => do
    let letters (n : Nat) : Text :=
      let allowed := 7 - n % 8
      (if allowed / 4 % 2 = 1 then ['r'] else []) ++ (if allowed / 2 % 2 = 1 then ['w'] else []) ++
        (if allowed % 2 = 1 then ['x'] else [])
    Exec.printLine (['u', '='] ++ letters (sh.mask / 64) ++ [',', 'g', '='] ++
      letters (sh.mask / 8) ++ [',', 'o', '='] ++ letters sh.mask)
    return 0
  | arg :: _ =>
    if arg.head?.any Char.isDigit then
      let (n, rest) := Text.leadingDigits 8 arg.length arg
      if rest.isEmpty then
        set { sh with mask := n % 512 }
        return 0
      else if sh.isBash then Exec.fail (arg ++ (": octal number out of range" : Text)) 1
      else Exec.fail (("Illegal number: " : Text) ++ arg)
    else
      match (Text.splitOn ',' arg).foldlM changeRights (511 - sh.mask) with
      | some rights => do
        set { sh with mask := 511 - rights }
        return 0
      | none => Exec.fail (("Illegal mode: " : Text) ++ arg)

def ulimit : Builtin := fun args => do
  let values := args.filter fun arg => arg.head? != some '-'
  if values.isEmpty then
    Exec.printLine (if args.any fun arg => arg.any (· == 'n') then "1024" else "unlimited")
  return 0

def times : Builtin := fun _ => do
  Exec.print ("0m0.000000s 0m0.000000s\n0m0.000000s 0m0.000000s\n" : Text)
  return 0

def noJob : Builtin := fun _ => do
  if (← get).isBash then Exec.fail "no job control" 1 else Exec.fail "No current job"

end CompileFail.Script.Builtin
