import CompileFail.Machine.Process

/-! How programs read their arguments: options are letters behind a dash or words behind two of them,
and what is no option is an operand. -/

namespace CompileFail.Utility

/-- An option: its letter, by which it is known inside, and the word for it, if there is one. -/
structure Opt where
  letter : Char
  word : String := ""
  /-- Something belongs to the option. -/
  takes : Bool := false
  /-- Something may belong to the word for it. -/
  mayTake : Bool := false

/-- The options of a program. -/
structure OptTable where
  opts : List Opt
  /-- The first operand ends the options. -/
  ordered : Bool := false
  /-- The exit code if the arguments are wrong. -/
  code : Nat := 1

/-- The arguments of a program. -/
structure Given where
  /-- The options in their order, each with what belongs to it. -/
  options : List (Char × Octets) := []
  operands : List Octets := []

namespace Given

def has (g : Given) (c : Char) : Bool := g.options.any (·.1 == c)

/-- What belongs to the last option of a letter. -/
def value? (g : Given) (c : Char) : Option Octets :=
  (g.options.reverse.find? (·.1 == c)).map (·.2)

/-- The last of some options that was given. -/
def last? (g : Given) (letters : List Char) : Option Char :=
  (g.options.reverse.find? fun (c, _) => letters.contains c).map (·.1)

end Given

namespace OptTable

/-- Options as letters, of which those with a colon behind them take something, and words. -/
def ofLetters (letters : String) (words : List (String × Char) := []) : OptTable :=
  let rec go : Text → List Opt
    | [] => []
    | c :: ':' :: rest => { letter := c, word := wordFor c, takes := true } :: go rest
    | c :: rest => { letter := c, word := wordFor c } :: go rest
  { opts := go letters.toList ++
      (words.filter fun (_, c) => !letters.toList.contains c).map fun (word, c) =>
        { letter := c, word := word, mayTake := true } }
where
  /-- The word for a letter. -/
  wordFor (c : Char) : String := ((words.find? (·.2 == c)).map (·.1)).getD ""

inductive Wrong where
  | letter (c : Char)
  | missing (c : Char)
  | word (s : Octets)
  | missingFor (s : Octets)
  | needless (s : Octets)

def Wrong.message : Wrong → Octets
  | .letter c => ("invalid option -- '" : Text) ++ [c, '\'']
  | .missing c => ("option requires an argument -- '" : Text) ++ [c, '\'']
  | .word s => ("unrecognized option '--" : Text) ++ s ++ ['\'']
  | .missingFor s => ("option '--" : Text) ++ s ++ ("' requires an argument" : Text)
  | .needless s => ("option '--" : Text) ++ s ++ ("' doesn't allow an argument" : Text)

/-- Reads letters behind a dash. -/
def letters (t : OptTable) : Text → (rest : List Octets) →
    Except Wrong (List (Char × Octets) × List Octets)
  | [], rest => .ok ([], rest)
  | c :: more, rest =>
    match t.opts.find? (·.letter == c) with
    | none => .error (.letter c)
    | some opt =>
      if opt.takes then
        match more, rest with
        | [], [] => .error (.missing c)
        | [], value :: rest => .ok ([(c, value)], rest)
        | _, _ => .ok ([(c, more)], rest)
      else do
        let (found, rest) ← letters t more rest
        .ok ((c, []) :: found, rest)

/-- Reads a word behind two dashes, which may be cut short. -/
def word (t : OptTable) (s : Text) (rest : List Octets) :
    Except Wrong ((Char × Octets) × List Octets) :=
  let (name, value?) := match Text.splitOnce? '=' s with
    | some (name, value) => (name, some value)
    | none => (s, none)
  let exact := t.opts.find? (·.word.toList == name)
  let longer := t.opts.filter fun opt => !name.isEmpty && name.isPrefixOf opt.word.toList
  match exact.or (if longer.length = 1 then longer.head? else none) with
  | none => .error (.word s)
  | some opt =>
    match value?, rest with
    | some value, _ =>
      if opt.takes || opt.mayTake then .ok ((opt.letter, value), rest)
      else .error (.needless opt.word.toList)
    | none, value :: rest =>
      if opt.takes then .ok ((opt.letter, value), rest) else .ok ((opt.letter, []), value :: rest)
    | none, [] =>
      if opt.takes then .error (.missingFor opt.word.toList) else .ok ((opt.letter, []), [])

/-- Reads arguments; `fuel` is more than their number. -/
def read (t : OptTable) : (fuel : Nat) → List Octets → Except Wrong Given
  | 0, _ => .ok {}
  | _, [] => .ok {}
  | fuel + 1, arg :: rest =>
    match arg with
    | ['-', '-'] => .ok { operands := rest }
    | '-' :: '-' :: s => do
      let (found, rest) ← word t s rest
      let g ← read t fuel rest
      .ok { g with options := found :: g.options }
    | '-' :: c :: more => do
      let (found, rest) ← letters t (c :: more) rest
      let g ← read t fuel rest
      .ok { g with options := found ++ g.options }
    | _ =>
      if t.ordered then .ok { operands := arg :: rest }
      else do
        let g ← read t fuel rest
        .ok { g with operands := arg :: g.operands }

end OptTable

/-- Complains and points to the help of the program. -/
def failUsage {α : Type} (code : Nat) (message : Octets) : Task α := do
  Task.complain message
  let name := (← MonadReader.read).name
  Task.writeTo 2 (("Try '" : Text) ++ name ++ (" --help' for more information.\n" : Text))
  Task.exit code

/-- The arguments of a program, or its end if they are wrong. -/
def given (t : OptTable) : Task Given := do
  let args ← Task.args
  match t.read (args.length + 1) args with
  | .ok g => return g
  | .error wrong => failUsage t.code wrong.message

/-- A name between quotes. -/
def inQuotes (s : Octets) : Octets := '\'' :: s ++ ['\'']

/-- A name as it stands in front of what is said about it: in quotes if it has unusual characters. -/
def named (s : Octets) : Octets :=
  if s.isEmpty || s.any (fun c => c == ' ' || c == '\'' || c == '"' || c == '*' || c == '?' ||
      c == '$' || c == '`' || c == '\\' || c == ';' || c == '&' || c == '|' || c == '<' || c == '>' ||
      c == '(' || c == ')' || c == '\t' || c == ':') then inQuotes s
  else s

/-- Complains about a missing operand. -/
def failMissing {α : Type} (operands : List Octets) (what : String := "missing operand") : Task α :=
  match operands.getLast? with
  | none => failUsage 1 what.toList
  | some last => failUsage 1 (what.toList ++ (" after " : Text) ++ inQuotes last)

/-- Does something with the contents of files, or of the input if there are none; answers with 1 if
one of them could not be read. -/
def forContents (names : List Octets) (act : Octets → Octets → Task Unit)
    (wrong : Octets → OsError → Octets := fun name e => named name ++ (": " : Text) ++ e.brief) :
    Task Nat := do
  let results ← (if names.isEmpty then [['-']] else names).mapM fun name => do
    match ← Task.contentOf name with
    | .ok content => do
      act name content
      return true
    | .error e => do
      Task.complain (wrong name e)
      return false
  return if results.all id then 0 else 1

/-- A natural number with a letter for its unit. -/
def sizeOf? (s : Octets) : Option Nat :=
  let digits := s.takeWhile Char.isDigit
  let factor? := match String.ofList (s.drop digits.length) with
    | "" | "c" => some 1
    | "b" => some 512
    | "k" | "K" | "KiB" => some 1024
    | "kB" | "KB" => some 1000
    | "M" | "MiB" => some 1048576
    | "MB" => some 1000000
    | "G" | "GiB" => some 1073741824
    | _ => none
  match Text.toNat? digits, factor? with
  | some n, some factor => some (n * factor)
  | _, _ => none

end CompileFail.Utility
