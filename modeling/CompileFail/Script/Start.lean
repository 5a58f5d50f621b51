import CompileFail.Script.Run

/-! Starting a shell: what its arguments ask for and what it finds in its environment. -/

namespace CompileFail.Script.Start

/-- The variables of a shell at its start, those that it makes itself before those that it finds.
What was meant to separate fields for others does not count. -/
def initialVariables (dialect : Dialect) (p : Process) (here : Text) : Variables :=
  let own (vars : Variables) (name : String) (value : Text) : Variables :=
    vars.set name.toList value
  let base := [("IFS", [' ', '\t', '\n']), ("OPTIND", ['1'])].foldl
    (fun vars (name, value) => own vars name value) {}
  let base := match dialect with
    | .dash =>
      [("PATH", "/usr/local/sbin:/usr/local/bin:/usr/sbin:/usr/bin:/sbin:/bin"), ("PPID", "1"),
        ("PS1", "# "), ("PS2", "> "), ("PS4", "+ ")].foldl
        (fun vars (name, value) => own vars name value.toList) base
    | .bash =>
      let vars := [("BASH", "/bin/bash"), ("BASH_VERSION", "5.2.21(1)-release"), ("EUID", "0"),
        ("HOSTNAME", "localhost"), ("HOSTTYPE", "x86_64"), ("MACHTYPE", "x86_64-pc-linux-gnu"),
        ("OPTERR", "1"), ("OSTYPE", "linux-gnu"),
        ("PATH", "/usr/local/sbin:/usr/local/bin:/usr/sbin:/usr/bin:/sbin:/bin"), ("PPID", "1"),
        ("PS4", "+ "), ("SECONDS", "0"), ("SHELL", "/bin/bash"),
        ("SHELLOPTS", "braceexpand:hashall:interactive-comments"), ("TERM", "dumb"), ("UID", "0"),
        ("RANDOM", "18467")].foldl (fun vars (name, value) => own vars name value.toList) base
      vars.setValue "BASH_VERSINFO" (.indexed
        (["5", "2", "21", "1", "release", "x86_64-pc-linux-gnu"].zipIdx.map fun (s, i) =>
          (i, s.toList)))
  let inherited := p.env.filter fun entry => !("IFS=" : Text).isPrefixOf entry
  let vars := Variables.ofEnvironment inherited base
  let vars := if dialect = .bash then
      let level := ((p.var? "SHLVL").bind Text.toNat?).getD 0
      (vars.set "SHLVL" (Text.ofNat (level + 1))).exporting "SHLVL"
    else vars
  let vars := (vars.set "OPTIND" ['1']).update "OPTIND" fun var => { var with exported := false }
  (vars.set "PWD" here).exporting "PWD"

/-- A shell at its start. It knows the directory it is in by the name that its environment has for
it, if that is a right one. -/
def shell (dialect : Dialect) (name : Text) (args : List Text) (p : Process) (machine : Machine) :
    Shell :=
  let tree := machine.tree
  let isHere (s : Text) : Bool :=
    match tree.find (Octets.path s) true with
    | .ok (place, .dir) => s.head? == some '/' && place == tree.workDir
    | _ => false
  let here := ((p.var? "PWD").filter isHere).getD tree.workDir.path.text
  { dialect := dialect, name := name, args := args, number := 20000 + machine.fresh
    vars := initialVariables dialect p here, here := here
    options := if dialect = .bash then ["hashall", "braceexpand"] else []
    descriptors := p.descriptors
    machine := { machine with fresh := machine.fresh + 1 } }

/-- What the arguments of a shell ask for. -/
structure Request where
  /-- Options that are turned on or off. -/
  options : List (Text × Bool) := []
  /-- The first of the words is the text of a script. -/
  inline : Bool := false
  words : List Text := []
  /-- An option that there is not. -/
  wrong : Option Text := none

/-- Reads the arguments of a shell; `fuel` is more than their number. -/
def request (dialect : Dialect) : (fuel : Nat) → List Text → Request → Request
  | 0, words, r => { r with words := words }
  | _, [], r => r
  | fuel + 1, arg :: rest, r =>
    match arg with
    | ['-', '-'] | ['-'] => { r with words := rest }
    | ['-', 'o'] | ['+', 'o'] =>
      match rest with
      | name :: rest =>
        request dialect fuel rest { r with options := r.options ++ [(name, arg.head? == some '-')] }
      | [] => r
    | '-' :: '-' :: name =>
      if dialect = .bash then
        request dialect fuel
          (if name = ("rcfile" : Text) ∨ name = ("init-file" : Text) then rest.drop 1 else rest) r
      else { r with wrong := some ['-', '-'] }
    | ['-', 'O'] | ['+', 'O'] =>
      if dialect = .bash then
        request dialect fuel (rest.drop 1)
          { r with options := r.options ++
              (rest.take 1).map fun name => (name, arg.head? == some '-') }
      else { r with wrong := some arg }
    | sign :: c :: more =>
      if sign ≠ '-' ∧ sign ≠ '+' then { r with words := arg :: rest }
      else
        let letters := c :: more
        let on := sign == '-'
        let known := letters.filterMap fun c =>
          (Builtin.settingOf? dialect c).map fun name => (name.toList, on)
        let ignored (c : Char) : Bool := c == 'c' || c == 'l' || c == 'o'
        match letters.find? fun c => (Builtin.settingOf? dialect c).isNone && !ignored c with
        | some c => { r with wrong := some [sign, c] }
        | none =>
          let named := if letters.any (· == 'o') then (rest.take 1).map (·, on) else []
          request dialect fuel (if letters.any (· == 'o') then rest.drop 1 else rest)
            { r with
              options := r.options ++ known ++ named
              inline := r.inline || letters.any (· == 'c') }
    | _ => { r with words := arg :: rest }

/-- Runs a shell as its arguments ask; answers with the wait status. -/
def run (dialect : Dialect) (launch : Launcher) (p : Process) (machine : Machine) : Nat × Machine :=
  let args := p.args.drop 1
  let r := request dialect (args.length + 1) args {}
  let say (message : Text) (code : Nat) : Nat × Machine :=
    let machine := match p.descriptors.get? 2 with
      | some id => machine.write id (message ++ ['\n'])
      | none => machine
    (exitStatus code, machine)
  let label : Text := match dialect with
    | .dash => p.name ++ (": 0: " : Text)
    | .bash => p.name ++ (": " : Text)
  let start (name : Text) (args : List Text) (text : Text) (machine : Machine) : Nat × Machine :=
    let sh := shell dialect name args p machine
    Run.script launch text (r.options.foldl (fun sh (name, on) => sh.turn name on) sh)
  match r.wrong with
  | some option =>
    match dialect with
    | .dash => say (label ++ ("Illegal option " : Text) ++ option) 2
    | .bash => say (label ++ option ++ (": invalid option" : Text)) 2
  | none =>
    match r.inline, r.words with
    | true, text :: words => start (words.headD p.name) (words.drop 1) text machine
    | true, [] =>
      match dialect with
      | .dash => say (label ++ ("-c requires an argument" : Text)) 2
      | .bash => say (label ++ ("-c: option requires an argument" : Text)) 2
    | false, words =>
      let fromInput := r.options.contains (("stdin" : Text), true) || words.isEmpty
      if fromInput then
        match p.descriptors.get? 0 with
        | some id => start p.name words (machine.unread id) (machine.leaveUnread id [])
        | none => (0, machine)
      else
        let file := words.headD []
        let path :=
          if file.any (· == '/') ∨ (machine.tree.find (Octets.path file) true).toOption.isSome
          then file
          else
            let dirs := Text.splitOn ':' ((p.var? "PATH").getD [])
            ((dirs.map fun dir => if dir.isEmpty then file else dir ++ '/' :: file).find? fun path =>
              machine.tree.isFile (Octets.path path) ∧ dialect = .bash).getD file
        match machine.tree.read (Octets.path path) with
        | .ok content =>
          let text := Octets.ofBytes content.toBytes
          let firstLine := (text.take 80).takeWhile (· != '\n')
          if dialect = .bash ∧ firstLine.any (· == '\x00') then
            say (file ++ (": " : Text) ++ file ++ (": cannot execute binary file" : Text)) 126
          else start path (words.drop 1) text machine
        | .error e =>
          match dialect with
          | .dash =>
            let reason : Text := match e with
              | .notFound | .notADirectory => "No such file"
              | e => e.brief
            say (label ++ ("cannot open " : Text) ++ file ++ (": " : Text) ++ reason) 2
          | .bash =>
            if e = .isADirectory then
              say (file ++ (": " : Text) ++ file ++ (": Is a directory" : Text)) 126
            else say (label ++ file ++ (": " : Text) ++ e.brief) 127

end CompileFail.Script.Start
