import CompileFail.Summary

/-! The arguments of the program. They are read from left to right, and whatever ends the reading
first decides: a request for help, a request for the version, or a misuse. The value of an argument
is looked at as soon as the next argument that may stand there begins, not before. -/

namespace CompileFail.Cli

/-- What can be given a value on the command line. -/
inductive Slot where
  | path
  | configuration
  | workers
  | config
  | format
deriving DecidableEq, Repr

namespace Slot

def text : Slot → Text
  | path => "[PATH]"
  | configuration => "[CONFIGURATION]"
  | workers => "[WORKERS]"
  | config => "--config <CONFIG>"
  | format => "--format <FORMAT>"

/-- The slots that are filled by position, in order. -/
def positions : List Slot := [path, configuration, workers]

/-- Whether the slot takes an empty value. -/
def takesEmpty : Slot → Bool
  | configuration | workers => true
  | path | config | format => false

/-- The slot of a long option. -/
def ofOption? (name : Text) : Option Slot :=
  if name = "config" then some config else if name = "format" then some format else none

end Slot

inductive Misuse where
  | unexpectedArgument (arg : Text)
  | unexpectedValue (option value : Text)
  | missingValue (slot : Slot)
  | repeated (slot : Slot)
  | invalidFormat (value : Text)
deriving DecidableEq, Repr

def Misuse.message : Misuse → Text
  | .unexpectedArgument arg =>
    ("unexpected argument '" : Text) ++ arg ++ ("' found" : Text)
  | .unexpectedValue option value =>
    ("unexpected value '" : Text) ++ value ++ ("' for '" : Text) ++ option ++
      ("' found; no more were expected" : Text)
  | .missingValue slot =>
    ("a value is required for '" : Text) ++ slot.text ++ ("' but none was supplied" : Text)
  | .repeated slot =>
    ("the argument '" : Text) ++ slot.text ++ ("' cannot be used multiple times" : Text)
  | .invalidFormat value =>
    ("invalid value '" : Text) ++ value ++ ("' for '" : Text) ++ Slot.format.text ++ ['\'']

/-- What ends the reading of arguments. -/
inductive Stop where
  | shortHelp
  | longHelp
  | version
  | misuse (cause : Misuse)
deriving DecidableEq, Repr

structure Arguments where
  path : Path := "."
  configuration : Text := "Debug"
  workers : Text := "10"
  config : Option Path := none
  format : Summary.Format := .text
deriving DecidableEq, Repr

/-- How far the arguments have been read. -/
structure Reading where
  arguments : Arguments := {}
  /-- Positions that are still free. -/
  free : List Slot := Slot.positions
  /-- Options that have been given. -/
  given : List Slot := []
  /-- A slot whose value has not been looked at; without a value it waits for one. -/
  pending : Option (Slot × Option Text) := none
deriving DecidableEq, Repr

def formatOf? (value : Text) : Option Summary.Format :=
  if value = "text" then some .text else if value = "json" then some .json else none

namespace Reading

/-- Gives a slot its value. -/
def fill (r : Reading) (slot : Slot) (value : Text) : Except Stop Reading :=
  if slot ∈ r.given then .error (.misuse (.repeated slot))
  else if value.isEmpty && !slot.takesEmpty then .error (.misuse (.missingValue slot))
  else match slot with
    | .path => .ok { r with arguments := { r.arguments with path := Path.ofText value } }
    | .configuration => .ok { r with arguments := { r.arguments with configuration := value } }
    | .workers => .ok { r with arguments := { r.arguments with workers := value } }
    | .config =>
      .ok { r with
        arguments := { r.arguments with config := some (Path.ofText value) }, given := slot :: r.given }
    | .format =>
      match formatOf? value with
      | some format =>
        .ok { r with arguments := { r.arguments with format := format }, given := slot :: r.given }
      | none => .error (.misuse (.invalidFormat value))

/-- Looks at the value that has not been looked at. -/
def settle (r : Reading) : Except Stop Reading :=
  match r.pending with
  | none => .ok r
  | some (slot, none) => .error (.misuse (.missingValue slot))
  | some (slot, some value) => { r with pending := none }.fill slot value

/-- An option with the value that is attached to it, if any. -/
def option (r : Reading) (slot : Slot) : Option Text → Except Stop Reading
  | some value => do (← r.settle).fill slot value
  | none => return { ← r.settle with pending := some (slot, none) }

/-- Stops at a request, unless the value before it is wrong. -/
def request (r : Reading) (stop : Stop) : Except Stop Reading := do
  let _ ← r.settle
  .error stop

/-- An option behind two dashes. -/
def long (r : Reading) (name : Text) (value : Option Text) : Except Stop Reading :=
  let flag (stop : Stop) : Except Stop Reading :=
    match value with
    | some value => .error (.misuse (.unexpectedValue ("--" ++ name) value))
    | none => r.request stop
  match Slot.ofOption? name with
  | some slot => r.option slot value
  | none =>
    if name = "help" then flag .longHelp
    else if name = "version" then flag .version
    else .error (.misuse (.unexpectedArgument ("--" ++ name)))

/-- The letter behind one dash, with what follows it. -/
def short (r : Reading) (letter : Char) (rest : Text) : Except Stop Reading :=
  if letter = 'h' then r.request .shortHelp
  else if letter = 'V' then r.request .version
  else if letter = 'f' then
    r.option .format (match rest with
      | [] => none
      | '=' :: value => some value
      | value => some value)
  else .error (.misuse (.unexpectedArgument ['-', letter]))

/-- An argument that fills the next free position. -/
def positional (r : Reading) (arg : Text) : Except Stop Reading :=
  match r.free with
  | [] => .error (.misuse (.unexpectedArgument arg))
  | slot :: free => do
    return { ← r.settle with free := free, pending := some (slot, some arg) }

/-- An argument that may be an option or the value of one. -/
def argument (r : Reading) (arg : Text) : Except Stop Reading :=
  match arg with
  | '-' :: '-' :: body =>
    match Text.splitOnce? '=' body with
    | some (name, value) => r.long name (some value)
    | none => r.long body none
  | '-' :: letter :: rest => r.short letter rest
  | _ =>
    match r.pending with
    | some (slot, none) => .ok { r with pending := some (slot, some arg) }
    | _ => r.positional arg

/-- All arguments; two dashes alone end the options. -/
def all (r : Reading) : List Text → Except Stop Reading
  | [] => r.settle
  | arg :: rest =>
    if arg = ['-', '-'] then do (← rest.foldlM positional r).settle
    else do all (← r.argument arg) rest

end Reading

/-- The argument that, on its own, asks for help in the manner of other systems. -/
def slashHelp : Text := "/?"

/-- Reads the arguments of the program. -/
def Arguments.read (args : List Text) : Except Stop Arguments :=
  if args = [slashHelp] then .error .longHelp
  else (Reading.all {} args).map (·.arguments)

end CompileFail.Cli
