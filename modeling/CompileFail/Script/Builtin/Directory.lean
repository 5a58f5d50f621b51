import CompileFail.Script.Builtin.Basic

/-! Builtins for the present directory. A shell remembers by which name it came there, and goes up
by that name, so that links do not lead it elsewhere. -/

namespace CompileFail.Script.Builtin

/-- A path without dots, and with names that go up taken away together with the name before. -/
def tidied (path : Text) : Text :=
  let kept := (Text.splitOn '/' path).foldl (fun (done : List Text) name =>
    match name with
    | [] | ['.'] => done
    | ['.', '.'] => done.drop 1
    | _ => name :: done) []
  '/' :: ['/'].intercalate kept.reverse

/-- Goes to a directory; answers whether it could. -/
def enter (target : Text) (physical : Bool) : Exec (Except OsError Unit) := do
  let sh ← get
  let logical :=
    if target.head? = some '/' then tidied target else tidied (sh.here ++ '/' :: target)
  match sh.tree.find (Octets.path (if physical then target else logical)) true with
  | .error e => return .error e
  | .ok (place, .dir) => do
    let name := if physical then place.path.text else logical
    let old := (sh.var? "PWD").getD []
    set (sh.withTree (sh.tree.atDir place))
    Exec.assign "OLDPWD" old
    Exec.assign "PWD" name
    modify fun sh =>
      { sh with here := name, vars := (sh.vars.exporting "OLDPWD").exporting "PWD" }
    return .ok ()
  | .ok _ => return .error .notADirectory

/-- The directories below which a name is looked for, each with whether it is named. -/
def searched (sh : Shell) (target : Text) : List (Text × Bool) :=
  let direct := target.head? = some '/' || target == ['.'] || target == ['.', '.'] ||
    ("./" : Text).isPrefixOf target || ("../" : Text).isPrefixOf target
  match sh.var? "CDPATH" with
  | some dirs =>
    if direct || dirs.isEmpty then [(target, false)]
    else
      ((Text.splitOn ':' dirs).map fun dir =>
        (if dir.isEmpty then target else dir ++ '/' :: target, !dir.isEmpty)) ++ [(target, false)]
  | none => [(target, false)]

def changeDir : Builtin := fun args => do
  let sh ← get
  let (options, args) ← options (if sh.isBash then "LPe@" else "LP") args
  let physical := (options.getLast?.map (·.1)) == some 'P'
  match args, sh.dialect with
  | _ :: _ :: _, .bash => Exec.fail "too many arguments" 1
  | _, _ => do
    let back := args.head? == some ['-']
    let target ← match args with
      | [] =>
        match sh.var? "HOME", sh.dialect with
        | none, .bash => Exec.fail "HOME not set" 1
        | home, _ => pure (home.getD [])
      | ['-'] :: _ =>
        match sh.var? "OLDPWD", sh.dialect with
        | none, .bash => Exec.fail "OLDPWD not set" 1
        | old, _ => pure (old.getD [])
      | dir :: _ => pure dir
    let target := if target.isEmpty then ['.'] else target
    let tries := searched sh target
    let found := tries.find? fun (path, _) => sh.tree.isDir (Octets.path path)
    let (path, named) := found.getD (target, false)
    match ← enter path physical with
    | .ok () => do
      if back || named then Exec.printLine (← get).here
      return 0
    | .error e =>
      if sh.isBash then Exec.fail (target ++ (": " : Text) ++ e.brief) 1
      else Exec.fail (("can't cd to " : Text) ++ target)

def showDir : Builtin := fun args => do
  let sh ← get
  let (options, _) ← options "LP" args
  if (options.getLast?.map (·.1)) = some 'P' then
    Exec.printLine sh.tree.workDir.path.text
  else Exec.printLine sh.here
  return 0

end CompileFail.Script.Builtin
