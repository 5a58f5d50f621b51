import CompileFail.Machine.Process
import CompileFail.Script.Variables

/-! The state of a shell that runs a script, and what may end a command before its end. A shell works
on a machine; what it starts works on the same machine. -/

namespace CompileFail.Script

/-- A command that runs beside the shell. As nobody can tell when it does what it does, that happens
when the shell waits for it, or at the end of the shell. It answers with a wait status. -/
structure Job where
  number : Nat
  work : Machine → Nat × Machine

structure Shell where
  dialect : Dialect
  /-- What `$0` stands for. -/
  name : Text
  args : List Text
  /-- The number of the process. -/
  number : Nat
  vars : Variables := {}
  functions : List (Text × Command) := []
  aliases : List (Text × Text) := []
  /-- The variables that belong to the functions at work, the innermost function first, each with
  what it was before. -/
  locals : List (List (Text × Option Variable)) := []
  /-- The names of the functions at work, the innermost first. -/
  callers : List Text := []
  status : Nat := 0
  /-- The statuses of the last pipeline. -/
  stages : List Nat := []
  /-- How many loops are around the present command. -/
  loops : Nat := 0
  /-- How many files are read in between. -/
  sources : Nat := 0
  /-- The line that messages name. -/
  line : Nat := 1
  /-- The builtin that speaks in messages. -/
  speaker : Option Text := none
  /-- The options that are on. -/
  options : List Text := []
  /-- What is done when a signal comes or, for 0, at the end. -/
  traps : List (Nat × Text) := []
  /-- Signals that have come and are still to be dealt with. -/
  signals : List Nat := []
  /-- Whether the status of the present command is looked at, so that it may fail. -/
  tested : Bool := false
  /-- Whether a substitution has run since this was last cleared. -/
  substituted : Bool := false
  isSubshell : Bool := false
  /-- How many substitutions are around the present command. -/
  nesting : Nat := 0
  /-- The present directory by the name it was reached by. -/
  here : Text := ['/']
  descriptors : Descriptors
  machine : Machine
  /-- Text for the input of commands that stands in the script. -/
  documents : List (Nat × Word) := []
  freshDocument : Nat := 0
  jobs : List Job := []
  /-- Wait statuses of jobs that have ended. -/
  ended : List (Nat × Nat) := []
  lastJob : Option Nat := none
  /-- How many letters of an argument have been taken as options. -/
  optionOffset : Nat := 0
  /-- The rights that new files do not get. -/
  mask : Nat := 18
  /-- Where names of programs have been found. -/
  found : List Text := []

/-- What ends a command other than coming to its end. -/
inductive Flow where
  | exit (status : Nat)
  | killed (signal : Nat)
  /-- Leaves a number of loops. -/
  | leave (loops : Nat)
  /-- Leaves all but one of a number of loops and goes on with the next round of that one. -/
  | next (loops : Nat)
  /-- Goes back from a function or a file. -/
  | back (status : Nat)
  /-- An error that has been reported. It ends a builtin, unless that is a special one. -/
  | failed (status : Nat)
  /-- Gives up what stands on the present line. -/
  | drop (status : Nat)
deriving DecidableEq, Repr

abbrev Exec (α : Type) := ExceptT Flow (StateM Shell) α

namespace Shell

def tree (sh : Shell) : FileTree := sh.machine.tree

def withTree (sh : Shell) (tree : FileTree) : Shell :=
  { sh with machine := { sh.machine with tree := tree } }

def isBash (sh : Shell) : Bool := sh.dialect == .bash

def set (sh : Shell) (name value : Text) : Shell := { sh with vars := sh.vars.set name value }

def var? (sh : Shell) (name : Text) : Option Text := sh.vars.get? name

def isOn (sh : Shell) (option : Text) : Bool := sh.options.contains option

def turn (sh : Shell) (option : Text) (on : Bool) : Shell :=
  let others := sh.options.filter (· != option)
  { sh with options := if on then option :: others else others }

/-- The characters at which the values of variables fall apart into fields. -/
def separators (sh : Shell) : Text := (sh.var? "IFS").getD [' ', '\t', '\n']

/-- The options that have letters, in the order in which the plain shell names them. -/
def letters : List (Char × String) :=
  [('e', "errexit"), ('f', "noglob"), ('I', "ignoreeof"), ('i', "interactive"), ('m', "monitor"),
   ('n', "noexec"), ('s', "stdin"), ('x', "xtrace"), ('v', "verbose"), ('V', "vi"), ('E', "emacs"),
   ('C', "noclobber"), ('a', "allexport"), ('b', "notify"), ('u', "nounset"), ('p', "privileged")]

/-- The options of the larger shell that have letters, in the order in which it names them. -/
def richLetters : List (Char × String) :=
  [('a', "allexport"), ('b', "notify"), ('e', "errexit"), ('f', "noglob"), ('h', "hashall"),
   ('k', "keyword"), ('m', "monitor"), ('n', "noexec"), ('p', "privileged"), ('t', "onecmd"),
   ('u', "nounset"), ('v', "verbose"), ('x', "xtrace"), ('B', "braceexpand"), ('C', "noclobber"),
   ('E', "errtrace"), ('H', "histexpand"), ('P', "physical"), ('T', "functrace"), ('c', "command"),
   ('s', "stdin")]

/-- The letters of the options that are on. -/
def flags (sh : Shell) : Text :=
  let on (table : List (Char × String)) : Text :=
    (table.filter fun (_, name) => sh.isOn name.toList).map (·.1)
  match sh.dialect with
  | .dash => (on letters).reverse
  | .bash => on richLetters

/-- The value of a special parameter or of a variable. -/
def value? (sh : Shell) (name : Text) : Option Text :=
  match name with
  | ['#'] => some (Text.ofNat sh.args.length)
  | ['?'] => some (Text.ofNat sh.status)
  | ['$'] => some (Text.ofNat sh.number)
  | ['-'] => some sh.flags
  | ['!'] => sh.lastJob.map Text.ofNat
  | _ =>
    if name.head?.any Char.isDigit then
      match Text.toNat? name with
      | some 0 => some sh.name
      | some (n + 1) => sh.args[n]?
      | none => none
    else if sh.dialect = .bash then
      match String.ofList name with
      | "LINENO" => some (Text.ofNat sh.line)
      | "FUNCNAME" => sh.callers.head?
      | "BASH_SOURCE" => some sh.name
      | "BASHPID" => some (Text.ofNat sh.number)
      | "PIPESTATUS" => some (Text.ofNat (sh.stages.headD sh.status))
      | _ => sh.var? name
    else sh.var? name

/-- The elements of an array. -/
def elements (sh : Shell) (name : Text) : List (Nat × Text) :=
  let listed (l : List Text) := l.zipIdx.map fun (s, i) => (i, s)
  match String.ofList name with
  | "PIPESTATUS" => listed (sh.stages.map Text.ofNat)
  | "FUNCNAME" => listed (sh.callers ++ if sh.callers.isEmpty then [] else ["main".toList])
  | "BASH_SOURCE" => listed [sh.name]
  | _ => Value.elements (sh.vars.value? name)

/-- The message of a shell, with its name and the line in front. -/
def remark (sh : Shell) (message : Text) : Text :=
  let place : Text := match sh.dialect with
    | .dash => Text.ofNat sh.line
    | .bash => ("line " : Text) ++ Text.ofNat sh.line
  let speaker : Text := match sh.speaker with
    | some name => name ++ (": " : Text)
    | none => []
  sh.name ++ (": " : Text) ++ place ++ (": " : Text) ++ speaker ++ message ++ ['\n']

/-- Writes to a descriptor. -/
def writeTo (sh : Shell) (fd : Nat) (s : Octets) : Shell :=
  match sh.descriptors.get? fd with
  | some id => { sh with machine := sh.machine.write id s }
  | none => sh

/-- What a trap of the shell says for a signal. -/
def trap? (sh : Shell) (signal : Nat) : Option Text :=
  (sh.traps.find? (·.1 == signal)).map (·.2)

end Shell

namespace Exec

def print (s : Octets) : Exec Unit := modify (·.writeTo 1 s)

def printLine (s : Octets) : Exec Unit := print (s ++ ['\n'])

/-- Writes a line about errors as it is. -/
def report (s : Octets) : Exec Unit := modify (·.writeTo 2 (s ++ ['\n']))

/-- Writes a message about something that went wrong. -/
def complain (message : Text) : Exec Unit := modify fun sh => sh.writeTo 2 (sh.remark message)

/-- Complains, which ends the present command, and the script too if the command is special. -/
def fail {α : Type} (message : Text) (status : Nat := 2) : Exec α := do
  complain message
  throw (.failed status)

/-- Complains about a variable or an expression: in the larger shell that ends what stands on the
line. -/
def giveUp {α : Type} (message : Text) : Exec α := do
  modify ({ · with speaker := none })
  complain message
  throw (if (← get).isBash then .drop 1 else .failed 2)

/-- Runs something and then, whatever became of it, changes the state with a look at the one from
before. -/
def afterwards {α : Type} (body : Exec α) (after : Shell → Shell → Shell) : Exec α := fun sh =>
  let (result, sh') := body sh
  (result, after sh sh')

/-- Runs something and puts the descriptors back. -/
def withDescriptors {α : Type} (body : Exec α) : Exec α :=
  afterwards body fun before after => { after with descriptors := before.descriptors }

/-- Runs something while a builtin speaks. -/
def speaking {α : Type} (name : Text) (body : Exec α) : Exec α :=
  afterwards (do
    modify ({ · with speaker := some name })
    body) fun before after => { after with speaker := before.speaker }

/-- Runs something whose status is looked at. -/
def testing {α : Type} (body : Exec α) : Exec α :=
  afterwards (do
    modify ({ · with tested := true })
    body) fun before after => { after with tested := before.tested }

/-- The rest of the input at a descriptor. -/
def unread (fd : Nat) : Exec Octets := do
  let sh ← get
  return match sh.descriptors.get? fd with
    | some id => sh.machine.unread id
    | none => []

/-- Leaves so much to be read from a descriptor. -/
def leaveUnread (fd : Nat) (rest : Octets) : Exec Unit := modify fun sh =>
  match sh.descriptors.get? fd with
  | some id => { sh with machine := sh.machine.leaveUnread id rest }
  | none => sh

end Exec

end CompileFail.Script
