import CompileFail.Script.Builtin.Basic
import CompileFail.Script.Format

/-! Builtins that define: variables and what is special about them, arguments and options. -/

namespace CompileFail.Script.Builtin

/-- Splits a definition into a name, whether it appends, and a value if there is one. -/
def definition (dialect : Dialect) (arg : Text) : Text × Bool × Option Text :=
  match Text.splitOnce? '=' arg with
  | none => (arg, false, none)
  | some (name, value) =>
    if dialect = .bash ∧ name.getLast? = some '+' then (name.dropLast, true, some value)
    else (name, false, some value)

/-- Complains about a name that no variable can have; that ends the script in the plain shell. -/
def checkName (name : Text) (arg : Text) : Exec Bool := do
  if isName name then return true
  else if (← get).isBash then
    Exec.complain ('`' :: arg ++ ("': not a valid identifier" : Text))
    return false
  else Exec.fail (name ++ (": bad variable name" : Text))

/-- A value as the larger shell lists it. -/
def doubleQuoted (s : Text) : Text :=
  '"' :: s.flatMap (fun c =>
    if c = '"' ∨ c = '$' ∨ c = '`' ∨ c = '\\' then ['\\', c] else [c]) ++ ['"']

/-- A variable as the larger shell declares it. -/
def declaration (name : Text) (var : Variable) : Text :=
  let kind : Text := match var.value with
    | some (.indexed _) => ['a']
    | some (.keyed _) => ['A']
    | _ => []
  let flags := kind ++ (if var.isNumber then ['i'] else []) ++ (if var.readOnly then ['r'] else []) ++
    (if var.exported then ['x'] else [])
  let value : Text := match var.value with
    | none => []
    | some (.scalar s) => '=' :: doubleQuoted s
    | some (.indexed l) =>
      ['=', '('] ++ [' '].intercalate (l.map fun (i, s) =>
        '[' :: Text.ofNat i ++ [']', '='] ++ doubleQuoted s) ++ [')']
    | some (.keyed l) =>
      ['=', '('] ++ (l.map fun (k, s) => '[' :: k ++ [']', '='] ++ doubleQuoted s ++ [' ']).flatten ++
        [')']
  ("declare -" : Text) ++ (if flags.isEmpty then ['-'] else flags) ++ ' ' :: name ++ value

/-- Lists variables that are marked, each as a command that marks it. -/
def listMarked (command : Text) (isMarked : Variable → Bool) : Exec Nat := do
  let sh ← get
  sh.vars.toList.forM fun (name, var) => do
    if isMarked var then
      if sh.isBash then Exec.printLine (declaration name var)
      else
        let value := match var.value.bind Value.text? with
          | some s => '=' :: quoted s
          | none => []
        Exec.printLine (command ++ ' ' :: name ++ value)
  return 0

/-- Marks variables and may give them values. -/
def marking (command : Text) (isMarked : Variable → Bool) (mark : Variable → Variable) : Builtin :=
  fun args => do
  let sh ← get
  let (options, names) ← options (if sh.isBash then "pnfaA" else "p") args
  let has (c : Char) : Bool := options.any (·.1 == c)
  if names.isEmpty || !sh.isBash && has 'p' then listMarked command isMarked
  else if has 'f' then return 0
  else
    let results ← names.mapM fun arg => do
      let (name, append, value) := definition sh.dialect arg
      if ← checkName name arg then
        if has 'n' then
          modify fun sh =>
            { sh with vars := sh.vars.update name fun var => { var with exported := false } }
        else
          match value with
          | some s => Exec.assignOrAppend name append s
          | none => pure ()
          modify fun sh => { sh with vars := sh.vars.update name mark }
        return true
      else return false
    return if results.all id then 0 else 1

def exporting : Builtin :=
  marking "export" (·.exported) fun var => { var with exported := true }

def protecting : Builtin :=
  marking "readonly" (·.readOnly) fun var => { var with readOnly := true }

/-- Makes a variable belong to the function at work. -/
def makeLocal (name : Text) : Exec Unit := modify fun sh =>
  match sh.locals with
  | frame :: outer =>
    if frame.any (·.1 == name) then sh
    else { sh with locals := ((name, sh.vars.find? name) :: frame) :: outer }
  | [] => sh

/-- Makes variables belong to the present function, and may give them values. -/
def own : Builtin := fun args => do
  if (← get).locals.isEmpty then Exec.fail "not in a function"
  else
    args.forM fun arg => do
      let name := arg.takeWhile (· != '=')
      if arg ≠ ['-'] then
        let _ ← checkName name name
        makeLocal name
        match Text.splitOnce? '=' arg with
        | some (_, value) => Exec.assign name value
        | none => pure ()
    return 0

/-- Declares variables with attributes, in a function as its own. -/
def declaring (isLocal : Bool) : Builtin := fun args => do
  let sh ← get
  let flags := (args.filter fun arg => arg.head? == some '-').flatten
  let offs := (args.filter fun arg => arg.head? == some '+').flatten
  let names := args.filter fun arg => arg.head? != some '-' && arg.head? != some '+'
  let has (c : Char) : Bool := flags.any (· == c)
  if isLocal && sh.locals.isEmpty then Exec.fail "can only be used in a function" 1
  else if has 'f' || has 'F' then
    let missing := names.filter fun name => !sh.functions.any (·.1 == name)
    if has 'F' then
      (names.filter (!missing.contains ·)).forM Exec.printLine
    return if missing.isEmpty then 0 else 1
  else if names.isEmpty || has 'p' then
    let shown := sh.vars.toList.filter fun (name, _) => names.isEmpty || names.contains name
    shown.forM fun (name, var) => Exec.printLine (declaration name var)
    let missing := names.filter fun name => !shown.any (·.1 == name)
    missing.forM fun name => Exec.complain (name ++ (": not found" : Text))
    return if missing.isEmpty then 0 else 1
  else
    let results ← names.mapM fun arg => do
      let (name, append, value) := definition .bash arg
      if ← checkName name arg then
        if !sh.locals.isEmpty && !has 'g' then
          let isNew := !((sh.locals.headD []).any (·.1 == name))
          makeLocal name
          if isNew then modify fun sh =>
            { sh with
              vars := (sh.vars.unset name).update name fun var =>
                { var with exported := sh.isOn "allexport" } }
        modify fun sh =>
          { sh with
            vars := sh.vars.update name fun var =>
              { var with
                isNumber := (var.isNumber || has 'i') && !offs.any (· == 'i')
                exported := (var.exported || has 'x') && !offs.any (· == 'x')
                value :=
                  if has 'A' then
                    match var.value with
                    | some (.keyed l) => some (.keyed l)
                    | _ => some (.keyed [])
                  else if has 'a' then
                    match var.value with
                    | some (.scalar s) => some (.indexed [(0, s)])
                    | none => some (.indexed [])
                    | other => other
                  else var.value } }
        match value with
        | some s =>
          let s := if has 'u' then s.map Char.toUpper else if has 'l' then s.map Char.toLower else s
          Exec.assignOrAppend name append s
        | none => pure ()
        if has 'r' then modify fun sh => { sh with vars := sh.vars.protecting name }
        return true
      else return false
    return if results.all id then 0 else 1

/-- Takes variables, elements of them or functions away. -/
def unset : Builtin := fun args => do
  let sh ← get
  let (options, names) ← options "vfn" args
  let last := options.getLast?.map (·.1)
  let results ← names.mapM fun arg => do
    let name := arg.takeWhile (· != '[')
    let noFunction (sh : Shell) : Shell :=
      { sh with functions := sh.functions.filter fun (other, _) => other != arg }
    if last = some 'f' then
      modify noFunction
      return true
    else if !(isName name) then
      if sh.isBash then
        if last = some 'v' || name.isEmpty then return ← checkName name arg
        else
          modify noFunction
          return true
      else checkName name name
    else if (← get).vars.isReadOnly name then
      if sh.isBash then
        Exec.complain (name ++ (": cannot unset: readonly variable" : Text))
        return false
      else Exec.fail (Exec.readOnlyMessage .dash name)
    else if sh.isBash && name.length < arg.length then
      let key := (arg.drop (name.length + 1)).dropLast
      let sh ← get
      match sh.vars.value? name with
      | some (.keyed l) =>
        set { sh with vars := sh.vars.setValue name (.keyed (l.filter (·.1 != key))) }
      | some (.indexed l) => do
        let index ← Exec.indexOf name (← Exec.calculate [] key)
        modify fun sh =>
          { sh with vars := sh.vars.setValue name (.indexed (l.filter (·.1 != index))) }
      | _ => modify fun sh => { sh with vars := sh.vars.unset name }
      return true
    else
      let known := (sh.vars.find? name).isSome
      if sh.isBash && !known && last.isNone then modify noFunction
      else
        modify fun sh => { sh with vars := sh.vars.unset name }
        if name = ("OPTIND" : Text) then Exec.noted name
      return true
  return if results.all id then 0 else 1

/-- The names of the options that can be listed, in order. -/
def settings : Dialect → List String
  | .dash => Shell.letters.map (·.2) ++ ["nolog", "debug"]
  | .bash =>
    ["allexport", "braceexpand", "emacs", "errexit", "errtrace", "functrace", "hashall",
     "histexpand", "history", "ignoreeof", "interactive-comments", "keyword", "monitor",
     "noclobber", "noexec", "noglob", "nolog", "notify", "nounset", "onecmd", "physical",
     "pipefail", "posix", "privileged", "verbose", "vi", "xtrace"]

/-- Lists the options, as a table or as commands. -/
def listSettings (asCommands : Bool) : Exec Unit := do
  let sh ← get
  if !asCommands && !sh.isBash then Exec.printLine "Current option settings"
  (settings sh.dialect).forM fun name => do
    let on := sh.isOn name.toList || name == "interactive-comments"
    if asCommands then
      Exec.printLine (("set " : Text) ++ [if on then '-' else '+', 'o', ' '] ++ name.toList)
    else
      let state : Text := if on then "on" else "off"
      let gap : Text := if sh.isBash then ['\t'] else [' ']
      Exec.printLine (Text.padRight 15 name.toList ++ gap ++ state)

/-- The name of the option that a letter stands for. -/
def settingOf? (dialect : Dialect) (c : Char) : Option String :=
  let table := match dialect with
    | .dash => Shell.letters
    | .bash => Shell.richLetters
  (table.find? (·.1 == c)).map (·.2)

/-- Turns options on and off; answers with the arguments behind them, if there are any. -/
def turnOptions : (fuel : Nat) → List Text → Exec (Option (List Text))
  | 0, _ => return none
  | fuel + 1, args => do
    let sh ← get
    match args with
    | [] => return none
    | ['-', '-'] :: rest => return some rest
    | ['-'] :: rest => do
      modify fun sh => (sh.turn "xtrace" false).turn "verbose" false
      return if rest.isEmpty then none else some rest
    | (sign :: letters) :: rest =>
      if sign ≠ '-' ∧ sign ≠ '+' then return some args
      else
        let on := sign == '-'
        match letters with
        | 'o' :: more => do
          let rest := if more.isEmpty then rest else ('-' :: more) :: rest
          match rest with
          | [] => do
            listSettings !on
            return none
          | name :: rest => do
            if (settings sh.dialect).any (·.toList == name) then modify (·.turn name on)
            else if sh.isBash then Exec.fail (name ++ (": invalid option name" : Text))
            else Exec.fail (("Illegal option " : Text) ++ [sign, 'o', ' '] ++ name)
            turnOptions fuel rest
        | c :: more => do
          match settingOf? sh.dialect c with
          | some name => modify (·.turn name.toList on)
          | none =>
            if sh.isBash then do
              Exec.complain ([sign, c] ++ (": invalid option" : Text))
              Exec.report
                "set: usage: set [-abefhkmnptuvxBCEHPT] [-o option-name] [--] [-] [arg ...]"
              throw (.failed 2)
            else Exec.fail (("Illegal option " : Text) ++ [sign, c])
          turnOptions fuel (if more.isEmpty then rest else (sign :: more) :: rest)
        | [] => return some args
    | [] :: _ => return some args

/-- Sets options and arguments, or lists the variables. -/
def setting : Builtin := fun args => do
  let sh ← get
  if args.isEmpty then
    sh.vars.toList.forM fun (name, var) => do
      match var.value, sh.dialect with
      | some value, .dash =>
        Exec.printLine (name ++ '=' :: quoted (value.text?.getD []))
      | some (.scalar s), .bash =>
        Exec.printLine (name ++ '=' :: if s.isEmpty then [] else shellWord s)
      | some _, .bash =>
        Exec.printLine ((declaration name { var with exported := false, readOnly := false }).drop 11)
      | none, _ => pure ()
    return 0
  else
    match ← turnOptions (args.flatten.length + args.length + 1) args with
    | some args => modify ({ · with args := args })
    | none => pure ()
    return 0
where
  /-- A value as the larger shell lists it. -/
  shellWord (s : Text) : Text :=
    if s.any fun c => c.toNat < 32 || c.toNat = 127 then requoted s
    else if s.all fun c => c.isAlphanum || ("_./:=@%+,-" : String).toList.contains c then s
    else '\'' :: s.flatMap (fun c => if c = '\'' then ("'\\''" : Text) else [c]) ++ ['\'']

/-- Removes arguments from the front. -/
def shift : Builtin := fun args => do
  let sh ← get
  match args, sh.dialect with
  | [], _ => drop 1
  | arg :: _, .dash => do drop (← number arg)
  | arg :: _, .bash =>
    match Text.toNat? arg with
    | some n => drop n
    | none => Exec.fail (arg ++ (": numeric argument required" : Text)) 1
where
  /-- Removes so many. -/
  drop (count : Nat) : Exec Nat := do
    let sh ← get
    if sh.args.length < count then
      if sh.isBash then return 1 else Exec.fail "can't shift that many"
    else
      set { sh with args := sh.args.drop count }
      return 0

/-- Takes the next option out of arguments and puts it into a variable. -/
def getopts : Builtin := fun args => do
  let sh ← get
  match args with
  | known :: target :: rest => do
    let words := if rest.isEmpty then sh.args else rest
    let index := max 1 (((sh.var? "OPTIND").bind Text.toNat?).getD 1)
    let silent := known.head? == some ':'
    let known := if silent then known.drop 1 else known
    let inside := (words.drop (index - 2)).headD []
    let left := if index ≤ 1 ∨ sh.optionOffset = 0 then [] else inside.drop sh.optionOffset
    let finish (letter : Char) (arg : Option Text) (index offset : Nat) (status : Nat) :
        Exec Nat := do
      match arg with
      | some s => Exec.assign "OPTARG" s
      | none => modify fun sh => { sh with vars := sh.vars.unset "OPTARG" }
      Exec.assign "OPTIND" (Text.ofNat index)
      modify ({ · with optionOffset := offset })
      Exec.assign target [letter]
      return status
    let atEnd (index : Nat) : Exec Nat := do
      Exec.assign "OPTIND" (Text.ofNat index)
      modify ({ · with optionOffset := 0 })
      Exec.assign target ['?']
      return 1
    let consume (letters : Text) (index offset : Nat) : Exec Nat := do
      match letters with
      | [] => atEnd index
      | c :: more =>
        let offset' := if more.isEmpty then 0 else offset + 1
        match if c = ':' then [] else known.dropWhile (· != c) with
        | [] =>
          if !silent then
            if sh.isBash then
              Exec.report (sh.name ++ (": illegal option -- " : Text) ++ [c])
            else Exec.report (("Illegal option -" : Text) ++ [c])
          finish '?' (if silent then some [c] else none) index offset' 0
        | _ :: ':' :: _ =>
          if !more.isEmpty then finish c (some more) index 0 0
          else match (words.drop (index - 1)).head? with
            | some value => finish c (some value) (index + 1) 0 0
            | none =>
              if silent then finish ':' (some [c]) index 0 0
              else
                if sh.isBash then
                  Exec.report (sh.name ++ (": option requires an argument -- " : Text) ++ [c])
                else Exec.report (("No arg for -" : Text) ++ [c] ++ (" option" : Text))
                finish '?' none index 0 0
        | _ => finish c (if sh.isBash then none else some []) index offset' 0
    if left.isEmpty then
      match (words.drop (index - 1)).head? with
      | some ['-', '-'] => atEnd (index + 1)
      | some ('-' :: c :: more) => consume (c :: more) (index + 1) 1
      | _ => atEnd index
    else consume left index sh.optionOffset
  | _ => do
    if sh.isBash then
      Exec.report "getopts: usage: getopts optstring name [arg ...]"
      return 2
    else Exec.fail "Usage: getopts optstring var [arg...]"

/-- Calculates expressions; fails if the last one is zero. -/
def calculating : Builtin := fun args => do
  let act : Exec (List Int) := args.mapM (Exec.calculate "let: ")
  let values ← tryCatch act fun
    | .drop status => throw (.failed status)
    | flow => throw flow
  match values.getLast? with
  | some n => return if n = 0 then 1 else 0
  | none => Exec.fail "expression expected" 1

/-- Turns further options of the larger shell on and off. -/
def shopt : Builtin := fun args => do
  let flags := (args.filter fun arg => arg.head? == some '-').flatten
  let names := args.filter fun arg => arg.head? != some '-'
  let has (c : Char) : Bool := flags.any (· == c)
  if has 's' || has 'u' then
    names.forM fun name => modify (·.turn name (has 's'))
    return 0
  else
    let sh ← get
    if !has 'q' then
      names.forM fun name =>
        Exec.printLine (Text.padRight 15 name ++ '\t' :: (if sh.isOn name then "on" else "off").toList)
    return if names.all sh.isOn then 0 else 1

end CompileFail.Script.Builtin
