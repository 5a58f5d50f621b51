import CompileFail.Script.Builtin.Control
import CompileFail.Script.Builtin.Definitions
import CompileFail.Script.Builtin.Directory
import CompileFail.Script.Builtin.Lookup
import CompileFail.Script.Builtin.Output
import CompileFail.Script.Redirecting

/-! Carrying out a command by its name, which is that of a function, a builtin or a program. -/

namespace CompileFail.Script.Calling

/-- The builtins that need to carry out nothing else. -/
def simpleBuiltin? (m : Means) (dialect : Dialect) (name : Text) : Option Builtin :=
  match String.ofList name with
  | ":" | "true" => some fun _ => pure 0
  | "false" => some fun _ => pure 1
  | "echo" => some Builtin.echo
  | "printf" => some Builtin.printf
  | "test" => some Builtin.condition
  | "[" => some Builtin.bracket
  | "read" => some Builtin.read
  | "export" => some Builtin.exporting
  | "readonly" => some Builtin.protecting
  | "local" =>
    some (match dialect with
      | .dash => Builtin.own
      | .bash => Builtin.declaring true)
  | "unset" => some Builtin.unset
  | "set" => some Builtin.setting
  | "shift" => some Builtin.shift
  | "getopts" => some Builtin.getopts
  | "cd" => some Builtin.changeDir
  | "pwd" => some Builtin.showDir
  | "exit" => some Builtin.exiting
  | "return" => some Builtin.returning
  | "break" => some Builtin.leaving
  | "continue" => some Builtin.continuing
  | "trap" => some Builtin.trapping
  | "kill" => some (Builtin.killing m)
  | "wait" => some Builtin.waiting
  | "umask" => some Builtin.umask
  | "ulimit" => some Builtin.ulimit
  | "times" => some Builtin.times
  | "type" => some Builtin.type
  | "alias" => some Builtin.aliasing
  | "unalias" => some Builtin.unaliasing
  | "hash" => some Builtin.hash
  | "jobs" => some fun _ => pure 0
  | "fg" | "bg" => some Builtin.noJob
  | _ =>
    match dialect, String.ofList name with
    | .dash, "chdir" => some Builtin.changeDir
    | .bash, "declare" | .bash, "typeset" => some (Builtin.declaring false)
    | .bash, "let" => some Builtin.calculating
    | .bash, "shopt" => some Builtin.shopt
    | .bash, "mapfile" | .bash, "readarray" => some Builtin.mapfile
    | .bash, "enable" | .bash, "help" | .bash, "disown" => some fun _ => pure 0
    | _, _ => none

/-- What is said about a program that cannot be started, and the status that this leaves. -/
def refusal (sh : Shell) (program : Text) (e : OsError) : Text × Nat :=
  let direct := program.any (· == '/')
  match sh.dialect with
  | .dash =>
    let reason : Text := match e with
      | .notFound | .notADirectory => "not found"
      | e => e.brief
    let status := match e with
      | .notFound | .notADirectory | .nameTooLong | .tooManyLinks => 127
      | _ => if direct then 126 else 127
    (program ++ (": " : Text) ++ reason, status)
  | .bash =>
    let found := Builtin.program? sh program
    match e, found with
    | .notFound, some path =>
      let firstLine := ((sh.tree.read (Octets.path path)).toOption.map fun content =>
        (Octets.ofBytes content.toBytes).takeWhile (· != '\n')).getD []
      let interpreter := (firstLine.drop 2).dropWhile (· == ' ')
      (path ++ (": " : Text) ++ interpreter ++
        (": bad interpreter: No such file or directory" : Text), 126)
    | .notFound, none | .notADirectory, none =>
      if direct then (program ++ (": " : Text) ++ e.brief, 127)
      else (program ++ (": command not found" : Text), 127)
    | _, _ =>
      if direct && sh.tree.isDir (Octets.path program) then
        (program ++ (": Is a directory" : Text), 126)
      else (found.getD program ++ (": " : Text) ++ e.brief, 126)

/-- The launch of a program. -/
def launchOf (sh : Shell) (search : Text) (args : List Text) : Launch :=
  let env := sh.vars.environment
  let program := args.headD []
  let env :=
    if sh.isBash then env ++ [("_=" : Text) ++ (Builtin.program? sh program).getD program] else env
  { program := program, search := search, asScript := true
    process := { args := args, env := env, descriptors := sh.descriptors } }

/-- Tells of a program that was ended by a signal. -/
def mourn (status : Nat) : Exec Unit := do
  let signal := status % 128
  if signal ≠ 0 ∧ signal ≠ 2 ∧ signal ≠ 13 then
    let sh ← get
    let message := Builtin.signalMessage signal
    if sh.isBash then Exec.complain (Text.ofNat sh.machine.fresh ++ ' ' :: message)
    else Exec.report message

/-- Starts a program and waits for its end. -/
def runProgram (m : Means) (search : Text) (args : List Text) : Exec Nat := do
  let sh ← get
  match m.launch (launchOf sh search args) sh.machine with
  | .error e => do
    let (message, status) := refusal sh (args.headD []) e
    Exec.complain message
    return status
  | .ok (status, machine) => do
    let name := args.headD []
    let machine := { machine with tree := machine.tree.atDir sh.tree.workDir }
    let found :=
      if name.any (· == '/') || sh.found.contains name then sh.found else sh.found ++ [name]
    set { sh with machine := machine, found := found }
    mourn status
    return Source.seenStatus status

/-- Ends the shell with the program that takes its place. -/
def become (m : Means) (args : List Text) : Exec Nat := do
  let sh ← get
  match m.launch (launchOf sh (Builtin.searchPath sh) args) sh.machine with
  | .error e => do
    let (message, status) := refusal sh (args.headD []) e
    let message :=
      if sh.isBash && status = 127 && !(args.headD []).any (· == '/') then
        args.headD [] ++ (": not found" : Text)
      else message
    Exec.complain message
    throw (.exit status)
  | .ok (status, machine) => do
    set { sh with machine := machine, traps := [] }
    if status % 128 = 0 then throw (.exit (Source.seenStatus status))
    else throw (.killed (status % 128))

/-- How deep functions may call each other. -/
def depthLimit : Nat := 1000

/-- Gives the variables of the innermost function back. -/
def leaveFunction (before after : Shell) : Shell :=
  let frame := after.locals.headD []
  { after with
    args := before.args, callers := before.callers, loops := before.loops
    locals := before.locals
    vars := frame.foldl (fun vars (name, var?) => vars.restore name var?) after.vars }

/-- Runs the body of a function with arguments and variables of its own. -/
def callFunction (m : Means) (name : Text) (body : Command) (args : List Text) : Exec Nat := do
  let sh ← get
  if sh.callers.length ≥ depthLimit then
    Exec.giveUp ("Maximum function recursion depth (1000) reached" : Text)
  else
    let act : Exec Nat := do
      set { sh with args := args, locals := [] :: sh.locals, callers := name :: sh.callers
                    loops := 0 }
      tryCatch (m.run body) fun
        | .back status => pure status
        | flow => throw flow
    Exec.afterwards act leaveFunction

/-- Carries out the text that arguments make. -/
def evaluate (m : Means) (args : List Text) : Exec Nat := do
  let sh ← get
  let text := [' '].intercalate args
  if sh.isBash then
    Exec.afterwards (do
      modify ({ · with speaker := none })
      Source.run m "eval" text sh.line) fun before after => { after with speaker := before.speaker }
  else Source.run m [] text 1

/-- The file that is meant by a name to be read in. -/
def sourceFile? (sh : Shell) (name : Text) : Option Text :=
  if name.any (· == '/') then some name
  else
    let dirs := Text.splitOn ':' (Builtin.searchPath sh)
    let dirs := if sh.isBash then dirs ++ [['.']] else dirs
    (dirs.map fun dir => if dir.isEmpty then name else dir ++ '/' :: name).find? fun path =>
      sh.tree.isFile (Octets.path path)

/-- Carries out the commands of a file. -/
def source (m : Means) (args : List Text) : Exec Nat := do
  let sh ← get
  match args with
  | [] =>
    if sh.isBash then do
      Exec.complain "filename argument required"
      Exec.report ".: usage: . filename [arguments]"
      return 2
    else return 0
  | name :: args => do
    let content := (sourceFile? sh name).map fun path =>
      (path, (sh.tree.read (Octets.path path)).map fun c => Octets.ofBytes c.toBytes)
    match content with
    | none =>
      if sh.isBash then do
        modify ({ · with speaker := none })
        Exec.fail (name ++ (": No such file or directory" : Text)) 1
      else Exec.fail (name ++ (": not found" : Text))
    | some (path, .error e) =>
      if sh.isBash then do
        modify ({ · with speaker := if e = .isADirectory then sh.speaker else none })
        Exec.fail (name ++ (if e = .isADirectory then ": is a directory" else
          ": " ++ String.ofList e.brief).toList) 1
      else Exec.fail (("cannot open " : Text) ++ path ++
        (if e = .notFound || e = .notADirectory then ": No such file" else
          ": " ++ String.ofList e.brief).toList)
    | some (path, .ok text) =>
      let act : Exec Nat := do
        modify fun sh =>
          { sh with
            sources := sh.sources + 1
            name := if sh.isBash then path else sh.name
            speaker := if sh.isBash then none else some path
            args := if sh.isBash && !args.isEmpty then args else sh.args }
        tryCatch (Source.run m [] text 1) fun
          | .back status => pure status
          | flow => throw flow
      Exec.afterwards act fun before after =>
        { after with
          sources := before.sources, name := before.name, speaker := before.speaker
          line := before.line
          args := if before.isBash && !args.isEmpty then before.args else after.args }

/-- How a name is to be understood. -/
structure Understanding where
  /-- Functions of the name do not count. -/
  noFunctions : Bool := false
  /-- The directories in which a program is looked for, if not the usual ones. -/
  search : Option Text := none

/-- Where the programs of the system are. -/
def systemPath : Text := "/usr/local/sbin:/usr/local/bin:/usr/sbin:/usr/bin:/sbin:/bin"

/-- Reads the options of `command`: whether it is to tell about names and in how many words, and
where programs are looked for. -/
def commandOptions (args : List Text) : Exec (Option Bool × Bool × List Text) := do
  let (options, rest) ← Builtin.options "pvV" args
  let tells := (options.reverse.find? fun (c, _) => c != 'p').map fun (c, _) => c == 'V'
  return (tells, options.any (·.1 == 'p'), rest)

/-- Runs a builtin while it speaks. An error ends it, and more than that where it is special. -/
def runBuiltin (name : Text) (special : Bool) (body : Exec Nat) : Exec Nat := do
  let sh ← get
  tryCatch (Exec.speaking name body) fun
    | .failed status => if special && !sh.isBash then throw (.failed status) else pure status
    | flow => throw flow

/-- Carries out a command by its name, which `command` may stand in front of; `fuel` is more than the
number of arguments. -/
def call (m : Means) : (fuel : Nat) → Understanding → List Text → Exec Nat
  | 0, _, _ => return 0
  | _, _, [] => return 0
  | fuel + 1, u, name :: args => do
    let sh ← get
    let special := Builtin.isSpecial name && !u.noFunctions
    match if u.noFunctions then none else sh.functions.find? (·.1 == name) with
    | some (_, body) => callFunction m name body args
    | none =>
      match simpleBuiltin? m sh.dialect name, String.ofList name with
      | some builtin, _ => runBuiltin name special (builtin args)
      | none, "eval" => runBuiltin name special (evaluate m args)
      | none, "." => runBuiltin name special (source m args)
      | none, "exec" => runBuiltin name special (execute args)
      | none, "command" => do
        let parsed ← catching (Exec.speaking name (commandOptions args))
        match parsed with
        | .error status => return status
        | .ok (some verbose, _, names) => do
          let names := if sh.isBash then names else names.take 1
          let statuses ← names.mapM fun name =>
            if verbose then Exec.speaking "command" (Builtin.describe name)
            else Builtin.locate name
          return if sh.isBash && statuses.contains 0 then 0 else statuses.foldl max 0
        | .ok (none, system, rest) =>
          let search := if system then some systemPath else u.search
          call m fuel { noFunctions := true, search := search } rest
      | none, other =>
        if sh.isBash && other == "source" then runBuiltin name special (source m args)
        else if sh.isBash && other == "builtin" then
          match args with
          | [] => return 0
          | inner :: _ =>
            if Builtin.isBuiltin .bash inner then call m fuel { u with noFunctions := true } args
            else runBuiltin name false (Exec.fail (inner ++ (": not a shell builtin" : Text)) 1)
        else runProgram m (u.search.getD (Builtin.searchPath sh)) (name :: args)
where
  /-- An error as a status. -/
  catching {α : Type} (body : Exec α) : Exec (Except Nat α) :=
    tryCatch (do return .ok (← body)) fun
      | .failed status => pure (.error status)
      | flow => throw flow
  /-- Gives way to a program, if there is one. -/
  execute (args : List Text) : Exec Nat := do
    let sh ← get
    let args := if args.head? = some ['-', '-'] then args.drop 1 else args
    match args, sh.dialect with
    | [], _ => return 0
    | ['-', 'a'] :: shown :: program :: rest, .bash => do
      let launch := launchOf sh (Builtin.searchPath sh) (program :: rest)
      match m.launch { launch with process := { launch.process with args := shown :: rest } }
          sh.machine with
      | .ok (status, machine) => do
        set { sh with machine := machine, traps := [] }
        throw (.exit (Source.seenStatus status))
      | .error _ => become m (program :: rest)
    | _, _ => become m args

end CompileFail.Script.Calling
