import CompileFail.Script.Builtin.Basic
import CompileFail.Script.Token

/-! Builtins that tell what names stand for. -/

namespace CompileFail.Script.Builtin

/-- Builtins whose errors end a script of the plain shell. -/
def isSpecial (name : Text) : Bool :=
  ([".", ":", "break", "continue", "eval", "exec", "exit", "export", "local", "readonly", "return",
    "set", "shift", "times", "trap", "unset"] : List Text).contains name

/-- The names of the other builtins. -/
def regularNames : Dialect → List Text
  | .dash =>
    ["[", "alias", "bg", "cd", "chdir", "command", "echo", "false", "fg", "getopts", "hash", "jobs",
     "kill", "printf", "pwd", "read", "test", "true", "type", "ulimit", "umask", "unalias", "wait"]
  | .bash =>
    ["[", "alias", "bg", "builtin", "cd", "command", "declare", "disown", "echo", "enable", "false",
     "fg", "getopts", "hash", "help", "jobs", "kill", "let", "mapfile", "popd", "printf", "pushd",
     "pwd", "read", "readarray", "shopt", "source", "test", "true", "type", "typeset", "ulimit",
     "umask", "unalias", "wait"].map String.toList

def isBuiltin (dialect : Dialect) (name : Text) : Bool :=
  isSpecial name || (regularNames dialect).contains name

/-- The directories in which programs are looked for. -/
def searchPath (sh : Shell) : Text :=
  (sh.var? "PATH").getD "/usr/local/sbin:/usr/local/bin:/usr/sbin:/usr/bin:/sbin:/bin"

/-- Whether a path leads to a file that may be run. -/
def isProgram (tree : FileTree) (path : Text) : Bool :=
  match tree.find (Octets.path path) true with
  | .ok (_, .file _ executable _) => executable
  | _ => false

/-- The path of the program that a name stands for. -/
def program? (sh : Shell) (name : Text) : Option Text :=
  if name.any (· == '/') then
    if (sh.tree.find (Octets.path name) true).toOption.isSome then some name else none
  else
    ((Text.splitOn ':' (searchPath sh)).map fun dir =>
      if dir.isEmpty then name else dir ++ '/' :: name).find? (isProgram sh.tree)

/-- What a name stands for. -/
inductive Meaning where
  | keyword
  | alias (text : Text)
  | function (body : Command)
  | builtin
  | program (path : Text)

def meaning? (sh : Shell) (name : Text) : Option Meaning :=
  if (Token.keywords sh.dialect).contains name then some .keyword
  else match sh.aliases.find? (·.1 == name) with
    | some (_, text) => some (.alias text)
    | none =>
      match sh.functions.find? (·.1 == name) with
      | some (_, body) => some (.function body)
      | none =>
        if isBuiltin sh.dialect name then some .builtin
        else (program? sh name).map .program

/-- An alias as a definition. -/
def aliasText (sh : Shell) (name text : Text) : Text :=
  name ++ '=' ::
    if sh.isBash then
      '\'' :: text.flatMap (fun c => if c = '\'' then ("'\\''" : Text) else [c]) ++ ['\'']
    else quoted text

/-- Tells what a name stands for in a sentence. -/
def describe (name : Text) : Exec Nat := do
  let sh ← get
  let tell (s : Text) : Exec Nat := do
    Exec.printLine (name ++ s)
    return 0
  match meaning? sh name with
  | some .keyword => tell " is a shell keyword"
  | some (.alias text) =>
    if sh.isBash then tell ((" is aliased to `" : Text) ++ text ++ ['\''])
    else tell ((" is an alias for " : Text) ++ text)
  | some (.function _) =>
    if sh.isBash then tell " is a function" else tell " is a shell function"
  | some .builtin =>
    if !sh.isBash && isSpecial name && name ≠ ("local" : Text) then
      tell " is a special shell builtin"
    else tell " is a shell builtin"
  | some (.program path) => do
    let known := sh.found.contains name
    if !known && !name.any (· == '/') then set { sh with found := sh.found ++ [name] }
    if !known || name.any (· == '/') then tell ((" is " : Text) ++ path)
    else if sh.isBash then tell ((" is hashed (" : Text) ++ path ++ [')'])
    else tell ((" is a tracked alias for " : Text) ++ path)
  | none => do
    if sh.isBash then Exec.complain (name ++ (": not found" : Text))
    else Exec.printLine (name ++ (": not found" : Text))
    return if sh.isBash then 1 else 127

/-- Tells what a name stands for in a word that can be used in its place. -/
def locate (name : Text) : Exec Nat := do
  let sh ← get
  match meaning? sh name with
  | some (.alias text) => do
    Exec.printLine (("alias " : Text) ++ aliasText sh name text)
    return 0
  | some (.program path) => do
    if !sh.isBash && !name.any (· == '/') && !sh.found.contains name then
      set { sh with found := sh.found ++ [name] }
    Exec.printLine path
    return 0
  | some _ => do
    Exec.printLine name
    return 0
  | none => return if sh.isBash then 1 else 127

def type : Builtin := fun args => do
  let sh ← get
  if sh.isBash then
    let (options, names) ← options "afptP" args
    let has (c : Char) : Bool := options.any (·.1 == c)
    let statuses ← names.mapM fun name => do
      if has 't' then
        match meaning? sh name with
        | some .keyword => word "keyword"
        | some (.alias _) => word "alias"
        | some (.function _) => word "function"
        | some .builtin => word "builtin"
        | some (.program _) => word "file"
        | none => return 1
      else if has 'p' || has 'P' then
        match meaning? sh name, program? sh name with
        | some (.program path), _ => word path
        | _, some path => if has 'P' then word path else return 0
        | some _, none => return 0
        | none, none => return 1
      else describe name
    return if statuses.all (· == 0) then 0 else 1
  else
    let statuses ← args.mapM describe
    return (statuses.getLast?.map fun _ => statuses.foldl max 0).getD 0
where
  /-- Prints a line. -/
  word (s : Text) : Exec Nat := do
    Exec.printLine s
    return 0

def aliasing : Builtin := fun args => do
  let sh ← get
  let args := if sh.isBash then args.filter (· != ['-', 'p']) else args
  if args.isEmpty then
    (sh.aliases.mergeSort fun a b => !decide (b.1 < a.1)).forM fun (name, text) =>
      Exec.printLine ((if sh.isBash then ("alias " : Text) else []) ++ aliasText sh name text)
    return 0
  else
    let statuses ← args.mapM fun arg => do
      match Text.splitOnce? '=' arg with
      | some (name, text) => do
        modify fun sh =>
          { sh with aliases := (name, text) :: sh.aliases.filter (·.1 != name) }
        return 0
      | none => do
        let sh ← get
        match sh.aliases.find? (·.1 == arg) with
        | some (name, text) => do
          Exec.printLine ((if sh.isBash then ("alias " : Text) else []) ++ aliasText sh name text)
          return 0
        | none => do
          if sh.isBash then Exec.complain (arg ++ (": not found" : Text))
          else Exec.report (("alias: " : Text) ++ arg ++ (" not found" : Text))
          return 1
    return statuses.foldl max 0

def unaliasing : Builtin := fun args => do
  if args.head? = some ['-', 'a'] then
    modify ({ · with aliases := [] })
    return 0
  else
    let statuses ← args.mapM fun arg => do
      let sh ← get
      if sh.aliases.any (·.1 == arg) then
        set { sh with aliases := sh.aliases.filter (·.1 != arg) }
        return 0
      else
        if sh.isBash then Exec.complain (arg ++ (": not found" : Text))
        else Exec.report (("unalias: " : Text) ++ arg ++ (" not found" : Text))
        return 1
    return statuses.foldl max 0

def hash : Builtin := fun args => do
  let sh ← get
  match args with
  | [] => do
    if sh.isBash then
      if sh.found.isEmpty then Exec.printLine "hash: hash table empty"
    else sh.found.forM fun name => do
      match program? sh name with
      | some path => Exec.printLine path
      | none => pure ()
    return 0
  | ['-', 'r'] :: _ => do
    set { sh with found := [] }
    return 0
  | _ =>
    let statuses ← args.mapM fun name => do
      let sh ← get
      if isBuiltin sh.dialect name || sh.functions.any (·.1 == name) then return 0
      else if (program? sh name).isSome then
        if !sh.found.contains name then set { sh with found := sh.found ++ [name] }
        return 0
      else
        Exec.complain (name ++ (": not found" : Text))
        return 1
    return statuses.foldl max 0

end CompileFail.Script.Builtin
