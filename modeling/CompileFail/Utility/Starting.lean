import CompileFail.FileTree.Change
import CompileFail.Utility.Calculating

/-! Programs that start other programs: with other variables, with arguments from the input, or
under conditions. -/

namespace CompileFail.Utility

/-- Starts a program, and ends with what it ends with; `failed` says what is said if it cannot be
started. -/
def become (launch : Launcher) (words : List Octets) (failed : Octets → OsError → Task Unit) :
    Task Nat := do
  match ← Task.start launch words with
  | .ok status => return Task.codeOf status
  | .error e => do
    failed (words.headD []) e
    return if e = .notFound then 127 else 126

/-- Says that a command could not be run. -/
def sayNotRun (name : Octets) (e : OsError) : Task Unit :=
  Task.complain (("failed to run command " : Text) ++ inQuotes name ++ (": " : Text) ++ e.brief)

/-- The variables with a new entry, which takes the place of one of the same name. -/
def putVar (env : List Octets) (entry : Octets) : List Octets :=
  let name := entry.takeWhile (· != '=')
  if env.any fun other => other.takeWhile (· != '=') == name then
    env.map fun other => if other.takeWhile (· != '=') = name then entry else other
  else env ++ [entry]

/-- The words of one text, in which quotes and backslashes keep blanks together. -/
def splitWords (env : List Octets) : (fuel : Nat) → (quote : Option Char) → (current : Option Octets) →
    Octets → Except Octets (List Octets)
  | 0, _, _, _ => .ok []
  | fuel + 1, quote, current, s =>
    let close (words : List Octets) : List Octets := match current with
      | some word => word.reverse :: words
      | none => words
    let add (cs : Octets) : Option Octets := some (cs.reverse ++ current.getD [])
    let isBlank (c : Char) : Bool := c == ' ' || c == '\t' || c == '\n' || c == '\r'
    match s with
    | [] => if quote.isSome then .error "no terminating quote in -S string" else .ok (close [])
    | '\\' :: c :: s =>
      if quote = some '\'' ∧ c ≠ '\'' ∧ c ≠ '\\' then splitWords env fuel quote (add ['\\', c]) s
      else match c with
        | 'n' => splitWords env fuel quote (add ['\n']) s
        | 't' => splitWords env fuel quote (add ['\t']) s
        | 'r' => splitWords env fuel quote (add ['\r']) s
        | 'f' => splitWords env fuel quote (add ['\x0c']) s
        | 'v' => splitWords env fuel quote (add ['\x0b']) s
        | '_' =>
          if quote.isSome then splitWords env fuel quote (add [' ']) s
          else do return close (← splitWords env fuel quote none s)
        | 'c' => .ok (close [])
        | '"' | '\'' | '\\' | '$' | '#' => splitWords env fuel quote (add [c]) s
        | c => .error (("invalid sequence '\\" : Text) ++ [c] ++ ("' in -S" : Text))
    | '$' :: '\x7b' :: s =>
      if quote = some '\'' then splitWords env fuel quote (add ['$', '\x7b']) s
      else match Text.splitOnce? '\x7d' s with
        | none => .error (("only $\x7bVARNAME\x7d expansion is supported, error at: $\x7b" : Text) ++ s)
        | some (name, rest) =>
          let value := (env.filterMap (Text.splitOnce? '=')).findSome? fun (other, value) =>
            if other = name then some value else none
          splitWords env fuel quote (add (value.getD [])) rest
    | c :: s =>
      if quote = some c then splitWords env fuel none (add []) s
      else if quote.isSome then splitWords env fuel quote (add [c]) s
      else if c = '"' ∨ c = '\'' then splitWords env fuel (some c) (add []) s
      else if isBlank c then do return close (← splitWords env fuel none none s)
      else if c = '#' ∧ current.isNone then .ok []
      else if c = '$' then
        .error (("only $\x7bVARNAME\x7d expansion is supported, error at: $" : Text) ++ s)
      else splitWords env fuel quote (add [c]) s

/-- The arguments with what is in one of them spread out. -/
def spread (env : List Octets) (args : List Octets) : Except Octets (List Octets) := do
  let split (s : Octets) (rest : List Octets) : Except Octets (List Octets) := do
    return (← splitWords env (s.length + 1) none none s) ++ rest
  match args with
  | ['-', 'S'] :: s :: rest => split s rest
  | ['-', 'v', 'S'] :: s :: rest => split s rest
  | ('-' :: 'S' :: s) :: rest => split s rest
  | ('-' :: 'v' :: 'S' :: s) :: rest => split s rest
  | first :: rest =>
    if ("--split-string=" : Text).isPrefixOf first then split (first.drop 15) rest
    else return first :: rest
  | [] => return []

/-- Runs a program with other variables, or prints them. -/
def env (launch : Launcher) : Task Nat := do
  let p ← read
  let args ← match spread p.env (p.args.drop 1) with
    | .ok args => pure args
    | .error e => Task.fail 125 e
  let table : OptTable := { OptTable.ofLetters "0iu:C:S:v"
    [("null", '0'), ("ignore-environment", 'i'), ("unset", 'u'), ("chdir", 'C'),
      ("split-string", 'S'), ("debug", 'v')] with ordered := true, code := 125 }
  let g ← (fun p => given table { p with args := p.name :: args } : Task Given)
  let bare := g.operands.head? == some ['-']
  let operands := if bare then g.operands.drop 1 else g.operands
  let base := if bare || g.has 'i' then [] else p.env
  let base := g.options.foldl (fun env (c, name) =>
    if c = 'u' then env.filter fun entry => entry.takeWhile (· != '=') != name else env) base
  let settings := operands.takeWhile fun s => s.any (· == '=')
  let vars := settings.foldl putVar base
  let words := operands.drop settings.length
  match g.value? 'C' with
  | none => pure ()
  | some dir =>
    match (← Task.tree).find (Octets.path dir) true with
    | .ok (place, .dir) => modify fun m => { m with tree := m.tree.atDir place }
    | .ok _ => Task.fail 125 (("cannot change directory to " : Text) ++ inQuotes dir ++
        (": Not a directory" : Text))
    | .error e => Task.fail 125 (("cannot change directory to " : Text) ++ inQuotes dir ++
        (": " : Text) ++ e.brief)
  if words.isEmpty then
    Task.print (vars.flatMap fun entry => entry ++ [if g.has '0' then '\x00' else '\n'])
    return 0
  else
    let task : Task Nat := become launch words fun name e => do
      Task.complain (inQuotes name ++ (": " : Text) ++ e.brief)
      if e = .notFound && name.any (· == ' ') then
        Task.complain "use -[v]S to pass options in shebang lines"
    fun p => task { p with env := vars }

/-- Prints the values of variables, or all of them. -/
def printenv : Task Nat := do
  let g ← given { OptTable.ofLetters "0" [("null", '0')] with ordered := true, code := 2 }
  let ending : Octets := if g.has '0' then ['\x00'] else ['\n']
  let p ← read
  if g.operands.isEmpty then
    Task.print (p.env.flatMap (· ++ ending))
    return 0
  let values := g.operands.map p.var?
  Task.print (values.flatMap fun value? => match value? with
    | some value => value ++ ending
    | none => [])
  return if values.all (·.isSome) then 0 else 1

/-- The words of an input, line by line; quotes and backslashes keep characters together. -/
def inputWords : (fuel : Nat) → (quote : Option Char) → (current : Option Octets) →
    (line : List Octets) → Octets → Except Octets (List (List Octets))
  | 0, _, _, _, _ => .ok []
  | fuel + 1, quote, current, line, s =>
    let closed : List Octets := match current with
      | some word => word.reverse :: line
      | none => line
    let add (c : Char) : Option Octets := some (c :: current.getD [])
    let finish (line : List Octets) (rest : List (List Octets)) : List (List Octets) :=
      if line.isEmpty then rest else line.reverse :: rest
    match s with
    | [] =>
      match quote with
      | some q => .error (unmatched q)
      | none => .ok (finish closed [])
    | c :: s =>
      match quote with
      | some q =>
        if c = q then inputWords fuel none (some (current.getD [])) line s
        else if c = '\n' then .error (unmatched q)
        else inputWords fuel quote (add c) line s
      | none =>
        if c = '\n' then
          if current.isNone && line.isEmpty then inputWords fuel none none [] s
          else do return finish closed (← inputWords fuel none none [] s)
        else if c = ' ' ∨ c = '\t' then inputWords fuel none none closed s
        else if c = '"' ∨ c = '\'' then inputWords fuel (some c) (some (current.getD [])) line s
        else if c = '\\' then
          match s with
          | d :: s => inputWords fuel none (add d) line s
          | [] => .ok (finish closed [])
        else inputWords fuel none (add c) line s
where
  unmatched (q : Char) : Octets :=
    ("unmatched " : Text) ++ (if q = '\'' then "single" else "double").toList ++
      (" quote; by default quotes are special to xargs unless you use the -0 option" : Text)

/-- Groups of so many neighbours. -/
def inGroups {α : Type} (size : Nat) : (fuel : Nat) → List α → List (List α)
  | 0, _ => []
  | _, [] => []
  | fuel + 1, xs => xs.take size :: inGroups size fuel (xs.drop size)

/-- Runs a program with arguments from the input. -/
def xargs (launch : Launcher) : Task Nat := do
  let g ← given { OptTable.ofLetters "0a:d:E:I:L:n:P:prs:tx"
    [("null", '0'), ("arg-file", 'a'), ("delimiter", 'd'), ("max-lines", 'L'), ("max-args", 'n'),
      ("max-procs", 'P'), ("no-run-if-empty", 'r'), ("verbose", 't'), ("max-chars", 's'),
      ("replace", 'I'), ("exit", 'x')] with ordered := true }
  let amount (c : Char) : Task (Option Nat) := do
    match g.value? c with
    | none => return none
    | some s => match Text.toNat? s with
      | some 0 => failUsage 1 (("value 0 for -" : Text) ++ [c] ++ (" option should be >= 1" : Text))
      | some n => return some n
      | none => failUsage 1 (("invalid number \"" : Text) ++ s ++ ("\" for -" : Text) ++ [c] ++
          (" option" : Text))
  let most ← amount 'n'
  let lines ← amount 'L'
  let content ← match g.value? 'a' with
    | none => Task.input
    | some name => do
      match ← Task.contentOf name with
      | .ok s => pure s
      | .error e => Task.fail 1 (("Cannot open input file " : Text) ++ inQuotes name ++ (": " : Text) ++ e.brief)
  let delimiter : Option Char := if g.has '0' then some '\x00' else match g.value? 'd' with
    | some ['\\', 'n'] => some '\n'
    | some ['\\', 't'] => some '\t'
    | some ['\\', '0'] => some '\x00'
    | some (c :: _) => some c
    | _ => none
  let read : Except Octets (List (List Octets)) := match delimiter, g.value? 'I' with
    | some c, _ =>
      let pieces := Text.splitOn c content
      .ok ((if pieces.getLast? = some [] then pieces.dropLast else pieces).map fun s => [s])
    | none, some _ => do
      let all ← inputWords (content.length + 1) none none [] content
      let raw := (Octets.lines content).filter fun line => line.any fun c => c != ' ' && c != '\t'
      let plain := !content.any fun c => c == '"' || c == '\'' || c == '\\'
      return if plain then raw.map fun line => [line.dropWhile fun c => c == ' ' || c == '\t']
        else all.map fun words => [[' '].intercalate words]
    | none, none => inputWords (content.length + 1) none none [] content
  let rows ← match read with
    | .ok rows => pure rows
    | .error e => Task.fail 1 e
  let command := if g.operands.isEmpty then ["echo".toList] else g.operands
  let size := rows.length + rows.flatten.length + 1
  let calls : List (List Octets) := match g.value? 'I', lines, most with
    | some mark, _, _ =>
      rows.map fun row => command.map fun word => Text.replace mark row.flatten word true
    | none, some n, _ => (inGroups n size rows).map fun group => command ++ group.flatten
    | none, none, some n => (inGroups n size rows.flatten).map fun group => command ++ group
    | none, none, none => if rows.isEmpty then [] else [command ++ rows.flatten]
  let calls := if calls.isEmpty && !g.has 'r' && (g.value? 'I').isNone then [command] else calls
  let (none', m) := (← get).addStream .device
  set m
  let runOne (words : List Octets) : Task Nat := do
    if g.has 't' then Task.writeTo 2 ([' '].intercalate words ++ ['\n'])
    match ← (fun p => Task.start launch words { p with descriptors := p.descriptors.set 0 none' } : Task _) with
    | .ok status =>
      let code := Task.codeOf status
      if status % 128 ≠ 0 then do
        Task.complain (words.headD [] ++ (": terminated by signal " : Text) ++ Text.ofNat (status % 128))
        Task.exit 125
      else if code = 255 then do
        Task.complain (words.headD [] ++ (": exited with status 255; aborting" : Text))
        Task.exit 124
      else return if code = 0 then 0 else 123
    | .error e => do
      Task.complain (words.headD [] ++ (": " : Text) ++ e.brief)
      Task.exit (if e = .notFound then 127 else 126)
  calls.foldlM (fun code words => do
    let next ← runOne words
    return if next = 0 then code else next) 0

/-- The seconds of a time with a letter for its unit, rounded up. -/
def seconds? (s : Octets) : Option Nat :=
  match Decimal.leadingRatio? s with
  | none => none
  | some (r, rest) =>
    let factor? := match String.ofList rest with
      | "" | "s" => some 1
      | "m" => some 60
      | "h" => some 3600
      | "d" => some 86400
      | _ => none
    factor?.map fun factor => (r.num * factor + r.den - 1) / r.den

/-- Lets time pass. -/
def sleep : Task Nat := do
  let g ← given (.ofLetters "")
  if g.operands.isEmpty then failMissing []
  let times := g.operands.map fun s => (s, seconds? s)
  let wrong := times.filter (·.2.isNone)
  match wrong.getLast? with
  | some (last, _) => do
    (wrong.dropLast).forM fun (s, _) =>
      Task.complain (("invalid time interval " : Text) ++ inQuotes s)
    failUsage 1 (("invalid time interval " : Text) ++ inQuotes last)
  | none => do
    let total := (times.map fun (_, n) => n.getD 0).foldl (· + ·) 0
    modify fun m => { m with tree := { m.tree with clock := m.tree.clock + total } }
    return 0

/-- Says that operands are missing, by a pointer to the help only. -/
def failQuietly {α : Type} (code : Nat) : Task α := do
  Task.writeTo 2 (("Try '" : Text) ++ (← read).name ++ (" --help' for more information.\n" : Text))
  Task.exit code

/-- Runs a program that may take only so much time. -/
def timeout (launch : Launcher) : Task Nat := do
  let g ← given { OptTable.ofLetters "k:s:v"
    [("kill-after", 'k'), ("signal", 's'), ("verbose", 'v'), ("foreground", 'f'),
      ("preserve-status", 'p')] with ordered := true, code := 125 }
  match g.operands with
  | limit :: word :: words => do
    match seconds? limit with
    | none => failUsage 125 (("invalid time interval " : Text) ++ inQuotes limit)
    | some most => do
      let start := (← Task.tree).clock
      let code ← become launch (word :: words) sayNotRun
      let finish := (← Task.tree).clock
      return if most > 0 && finish - start > most then 124 else code
  | _ => failQuietly 125

/-- Runs a program with the priority that all have here. -/
def nice (launch : Launcher) : Task Nat := do
  let args ← Task.args
  let isAmount (s : Octets) : Bool := match s with
    | '-' :: c :: _ => c.isDigit || c == '-'
    | _ => false
  let args := match args with
    | first :: rest => if isAmount first && !("--" : Text).isPrefixOf first then rest else args
    | [] => []
  let table : OptTable := { OptTable.ofLetters "n:" [("adjustment", 'n')] with ordered := true, code := 125 }
  let g ← (fun p => given table { p with args := p.name :: args } : Task Given)
  if g.operands.isEmpty then
    Task.print ['0', '\n']
    return 0
  else become launch g.operands fun name e => Task.complain (inQuotes name ++ (": " : Text) ++ e.brief)

/-- Runs a program with the options in front of it dropped. -/
def startPlainly (launch : Launcher) (letters : String) : Task Nat := do
  let g ← given { OptTable.ofLetters letters with ordered := true, code := 125 }
  if g.operands.isEmpty then failUsage 125 "missing operand"
  become launch g.operands sayNotRun

end CompileFail.Utility
