import CompileFail.Script.Assigning

/-! What the builtins of a shell have in common: numbers and options among their arguments, and text
in a form that a shell reads back. -/

namespace CompileFail.Script

abbrev Builtin := List Text → Exec Nat

namespace Builtin

/-- A natural number; anything else ends the builtin. -/
def number (s : Text) : Exec Nat := do
  match Text.toNat? s with
  | some n =>
    if n < Nat.pow 2 31 then return n else Exec.fail (("Illegal number: " : Text) ++ s)
  | none => Exec.fail (("Illegal number: " : Text) ++ s)

/-- The options of a builtin in the order given, each with what belongs to it, and the other
arguments; a colon in `known` says that something belongs to the letter before it. `fuel` is more than
the number of characters of all arguments. -/
def optionsWithin (known : Text) : (fuel : Nat) → List Text → Exec (List (Char × Text) × List Text)
  | 0, args => return ([], args)
  | fuel + 1, args => do
    match args with
    | ['-', '-'] :: rest => return ([], rest)
    | ('-' :: c :: more) :: rest =>
      match known.dropWhile (· != c) with
      | [] => refuse c
      | _ :: ':' :: _ =>
        if c = ':' then refuse c
        else match more, rest with
          | [], [] => missing c
          | [], value :: rest => do
            let (options, rest) ← optionsWithin known fuel rest
            return ((c, value) :: options, rest)
          | _, _ => do
            let (options, rest) ← optionsWithin known fuel rest
            return ((c, more) :: options, rest)
      | _ => do
        let next := if more.isEmpty then rest else ('-' :: more) :: rest
        let (options, rest) ← optionsWithin known fuel next
        return ((c, []) :: options, rest)
    | _ => return ([], args)
where
  /-- A letter that is no option. -/
  refuse (c : Char) : Exec (List (Char × Text) × List Text) := do
    if (← get).isBash then Exec.fail (['-', c] ++ (": invalid option" : Text))
    else Exec.fail (("Illegal option -" : Text) ++ [c])
  /-- A letter with nothing behind it. -/
  missing (c : Char) : Exec (List (Char × Text) × List Text) := do
    if (← get).isBash then Exec.fail (['-', c] ++ (": option requires an argument" : Text))
    else Exec.fail (("No arg for -" : Text) ++ [c] ++ (" option" : Text))

def options (known : String) (args : List Text) : Exec (List (Char × Text) × List Text) :=
  optionsWithin known.toList (args.flatten.length + args.length + 1) args

/-- Text in single quotes, with its own single quotes in double ones; `fuel` is at least its length. -/
def quotedWithin : (fuel : Nat) → Text → Text
  | 0, _ => []
  | fuel + 1, s =>
    let plain := s.takeWhile (· != '\'')
    let rest := s.drop plain.length
    let quotes := rest.takeWhile (· == '\'')
    let rest := rest.drop quotes.length
    '\'' :: plain ++ ['\''] ++
      if quotes.isEmpty then []
      else '"' :: quotes ++ ['"'] ++ if rest.isEmpty then [] else quotedWithin fuel rest

/-- Text in a form that the plain shell reads back. -/
def quoted (s : Text) : Text := quotedWithin (s.length + 1) s

/-- Names of signals in the order of their numbers, from 1 on. -/
def signalNames : List String :=
  ["HUP", "INT", "QUIT", "ILL", "TRAP", "ABRT", "BUS", "FPE", "KILL", "USR1", "SEGV", "USR2", "PIPE",
   "ALRM", "TERM", "16", "CHLD", "CONT", "STOP", "TSTP", "TTIN", "TTOU", "URG", "XCPU", "XFSZ",
   "VTALRM", "PROF", "WINCH", "IO", "PWR", "SYS", "32", "33", "RTMIN", "RTMIN+1", "RTMIN+2",
   "RTMIN+3", "RTMIN+4", "RTMIN+5", "RTMIN+6", "RTMIN+7", "RTMIN+8", "RTMIN+9", "RTMIN+10",
   "RTMIN+11", "RTMIN+12", "RTMIN+13", "RTMIN+14", "RTMIN+15", "RTMAX-14", "RTMAX-13", "RTMAX-12",
   "RTMAX-11", "RTMAX-10", "RTMAX-9", "RTMAX-8", "RTMAX-7", "RTMAX-6", "RTMAX-5", "RTMAX-4",
   "RTMAX-3", "RTMAX-2", "RTMAX-1", "RTMAX"]

def signalName (n : Nat) : Text :=
  if n = 0 then "EXIT" else (signalNames.getD (n - 1) "").toList

/-- The signal of a name or a number, of which the smallest is given. The larger shell knows the
names also with letters in front. -/
def signal? (dialect : Dialect) (smallest : Nat) (s : Text) : Option Nat :=
  let bare :=
    if dialect = .bash ∧ ("SIG" : Text).isPrefixOf (s.map Char.toUpper) then s.drop 3 else s
  match Text.toNat? s with
  | some n => if smallest ≤ n ∧ n < 65 then some n else none
  | none =>
    ((List.range 65).drop smallest).find? fun n => Text.eqIgnoreCase (signalName n) bare

/-- The message of the system for a program that was ended by a signal. -/
def signalMessage (n : Nat) : Text :=
  match n with
  | 1 => "Hangup"
  | 2 => "Interrupt"
  | 3 => "Quit"
  | 4 => "Illegal instruction"
  | 5 => "Trace/breakpoint trap"
  | 6 => "Aborted"
  | 7 => "Bus error"
  | 8 => "Floating point exception"
  | 9 => "Killed"
  | 10 => "User defined signal 1"
  | 11 => "Segmentation fault"
  | 12 => "User defined signal 2"
  | 13 => "Broken pipe"
  | 14 => "Alarm clock"
  | 15 => "Terminated"
  | 16 => "Stack fault"
  | 24 => "CPU time limit exceeded"
  | 25 => "File size limit exceeded"
  | 26 => "Virtual timer expired"
  | 27 => "Profiling timer expired"
  | 29 => "I/O possible"
  | 30 => "Power failure"
  | 31 => "Bad system call"
  | _ => if n ≥ 34 then ("Real-time signal " : Text) ++ Text.ofNat (n - 34)
    else ("Signal " : Text) ++ Text.ofNat n

end Builtin

end CompileFail.Script
