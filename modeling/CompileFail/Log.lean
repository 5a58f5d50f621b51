import CompileFail.Text.Blank
import CompileFail.Text.WordChar

/-! The log of a run. Each entry names its source, and a filter says up to which level of detail
each source is heard. -/

namespace CompileFail.Log

inductive Level where
  | off
  | error
  | warn
  | info
  | debug
  | trace
deriving DecidableEq, Repr

namespace Level

def rank : Level → Nat
  | off => 0
  | error => 1
  | warn => 2
  | info => 3
  | debug => 4
  | trace => 5

def text : Level → Text
  | off => "OFF"
  | error => "ERROR"
  | warn => "WARN"
  | info => "INFO"
  | debug => "DEBUG"
  | trace => "TRACE"

/-- The colour of a level on a terminal. -/
def colour : Level → Text
  | off | error => "31"
  | warn => "33"
  | info => "32"
  | debug => "34"
  | trace => "35"

def all : List Level := [off, error, warn, info, debug, trace]

/-- A level by its rank, which may have a plus sign and zeros in front, or by its name in any
case. -/
def ofText? (s : Text) : Option Level :=
  let rank? := Text.toNat? (if s.head? = some '+' then s.drop 1 else s)
  all.find? fun level => rank? == some level.rank || Text.eqIgnoreCase s level.text

end Level

/-- The part of the program that an entry comes from. -/
inductive Source where
  | run
  | tools
  | layout
  | template
  | checks
  | verify
  | compile
deriving DecidableEq, Repr

def Source.target : Source → Text
  | run => "checkce"
  | tools => "checkce::toolchain"
  | layout => "checkce::discovery"
  | template => "checkce::invocation"
  | checks => "checkce::orchestrator"
  | verify => "checkce::verifier"
  | compile => "checkce::compiler"

structure Entry where
  level : Level
  source : Source
  message : Text
deriving DecidableEq, Repr

/-- One clause of a filter: entries whose target starts with `target` are heard up to `level`. A
clause may ask for entries that carry a field. -/
structure Clause where
  target : Text
  field : Option Text := none
  level : Level
deriving DecidableEq, Repr

abbrev Filter := List Clause

/-- What is heard if nothing else is asked for. -/
def Filter.default : Filter := [{ target := "checkce", level := .warn }]

/-- The only field that an entry of the log carries. -/
def messageField : Text := "message"

namespace Clause

/-- The level that a clause ends with; without one its targets are heard in full. -/
def levelOf? (s : Text) : Option Level := if s.isEmpty then some .trace else Level.ofText? s

/-- A clause that is a level for all targets or a target that is heard in full. -/
def ofWord (s : Text) : Clause :=
  match Level.ofText? s with
  | some level => { target := [], level := level }
  | none => { target := s, level := .trace }

/-- How many characters the name of a span and a field take in brackets, and how many all takes
from behind the opening bracket on. -/
def bracketSizes? (s : Text) : Option (Nat × Option Nat × Nat) :=
  let span := s.takeWhile fun c => c != ']' && c != '\x7b'
  match s.drop span.length with
  | ']' :: _ => some (span.length, none, span.length + 1)
  | '\x7b' :: rest =>
    let field := rest.takeWhile (· != '\x7d')
    match rest.drop field.length with
    | '\x7d' :: ']' :: _ =>
      if field.isEmpty then none
      else some (span.length, some field.length, span.length + field.length + 3)
    | _ => none
  | _ => none

/-- Reads a clause. Its form is that of the text without the blanks around it, but its parts are
taken from the same positions of the whole text, so that a blank in front spoils most clauses.
Entries of the log stand in no span and their fields are not compared with values: a clause that
asks for either is never met and left out. -/
def read? (s : Text) : Option (List Clause) :=
  let form := Text.trim s
  let part (start stop : Nat) : Text := (s.take stop).drop start
  let inBrackets (start : Nat) : Option (List Clause) := do
    let (span, field?, size) ← bracketSizes? (form.drop (start + 1))
    let level ← match form.drop (start + 1 + size) with
      | [] => some .trace
      | '=' :: _ => levelOf? (s.drop (start + size + 2))
      | _ => none
    match span, field? with
    | 0, some length =>
      let field := part (start + 2) (start + 2 + length)
      if field.any (· == '=') then some []
      else some [{ target := part 0 start, field := some field, level := level }]
    | _, _ => some []
  match form with
  | [] => none
  | '[' :: _ => inBrackets 0
  | c :: rest =>
    if !(isWordChar c || c == '-' || c == ':') then none
    else
      let size := (rest.takeWhile fun c => c != '=' && c != '[').length + 1
      match form.drop size with
      | '=' :: _ => (levelOf? (s.drop (size + 1))).map fun level =>
        [{ target := part 0 size, level := level }]
      | '[' :: _ => inBrackets size
      | _ => some [ofWord s]

/-- Whether the clause is about an entry with a target. -/
def covers (clause : Clause) (target : Text) : Bool :=
  clause.target.isPrefixOf target && clause.field.all (· == messageField)

/-- A clause is more special the longer its target is; of two alike one with a field. -/
def rank (clause : Clause) : Nat :=
  2 * clause.target.length + if clause.field.isSome then 1 else 0

end Clause

/-- The clauses between commas; empty ones are left out. -/
def Filter.ofText? (s : Text) : Option Filter :=
  (((Text.splitOn ',' s).filter (!·.isEmpty)).mapM Clause.read?).map List.flatten

/-- The level up to which a target is heard: that of the most special clause that covers it, and of
two equal ones that of the later. -/
def Filter.levelOf (filter : Filter) (target : Text) : Level :=
  let best := filter.foldl (fun best? clause =>
    if !clause.covers target then best?
    else match best? with
      | none => some clause
      | some best => if best.rank ≤ clause.rank then some clause else some best)
    none
  match best with
  | some clause => clause.level
  | none => .off

def Filter.hears (filter : Filter) (entry : Entry) : Bool :=
  entry.level.rank ≤ (filter.levelOf entry.source.target).rank

/-- Control characters that a terminal could take for commands are written as escapes. -/
def escapeControl (c : Char) : Text :=
  if ['\x07', '\x08', '\x0c', '\x1b', '\x7f'].contains c then
    ['\\', 'x'] ++ Text.twoHexDigits c.toNat
  else if 0x80 ≤ c.toNat ∧ c.toNat ≤ 0x9F then
    ['\\', 'u', '\x7b'] ++ Text.twoHexDigits c.toNat ++ ['\x7d']
  else [c]

/-- The escape sequence that sets a style. -/
def escapeSequence (style : Text) : Text := ['\x1b', '['] ++ style ++ ['m']

/-- An escape sequence that sets a style, the styled text, and the end of the style. -/
def styled (style text : Text) : Text := escapeSequence style ++ text ++ escapeSequence ['0']

/-- An entry as it is written, with a time in front, in colour or plain. -/
def Entry.render (entry : Entry) (inColour : Bool) (time : Text) : Text :=
  let level := Text.padLeft 5 entry.level.text
  let message := entry.message.flatMap escapeControl
  if inColour then
    styled ['2'] time ++ [' '] ++ styled entry.level.colour level ++ [' '] ++
      styled ['2'] entry.source.target ++ styled ['2'] [':'] ++ [' '] ++ message ++ ['\n']
  else
    time ++ [' '] ++ level ++ [' '] ++ entry.source.target ++ (": " : Text) ++ message ++ ['\n']

end CompileFail.Log
