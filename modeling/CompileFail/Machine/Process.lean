import CompileFail.Machine.Basic

/-! Processes: programs at work on a machine, with words and variables that they were given and
numbered descriptors for the streams that they use. -/

namespace CompileFail

/-- The stream behind each descriptor. -/
abbrev Descriptors := List (Nat × Nat)

namespace Descriptors

def get? (ds : Descriptors) (fd : Nat) : Option Nat := (ds.find? (·.1 == fd)).map (·.2)

def close (ds : Descriptors) (fd : Nat) : Descriptors := ds.filter (·.1 != fd)

def set (ds : Descriptors) (fd stream : Nat) : Descriptors := (fd, stream) :: ds.close fd

end Descriptors

structure Process where
  /-- The name that the program was called by and its arguments. -/
  args : List Octets
  /-- The variables, each as a name, an equals sign and a value. -/
  env : List Octets
  descriptors : Descriptors

namespace Process

def name (p : Process) : Octets := p.args.headD []

/-- The value of a variable. -/
def var? (p : Process) (name : Octets) : Option Octets :=
  (p.env.filterMap (Text.splitOnce? '=')).findSome? fun (other, value) =>
    if other = name then some value else none

end Process

/-- A program that is to be started. -/
structure Launch where
  /-- A path, or a name that is looked for in the directories of `search`. -/
  program : Octets
  search : Octets
  /-- Whether a file that is no program is run as a shell script. -/
  asScript : Bool
  process : Process

/-- Starts programs and waits for their end: answers with the wait status, the signal in the low
seven bits or none and the exit code in the next eight. -/
abbrev Launcher := Launch → Machine → Except OsError (Nat × Machine)

/-- The wait status of a program that ended with an exit code. -/
def exitStatus (code : Nat) : Nat := 256 * (code % 256)

/-- What a program does that the machine has of its own. A program ends early by an exit code. -/
abbrev Task (α : Type) := ReaderT Process (ExceptT Nat (StateM Machine)) α

namespace Task

def exit {α : Type} (code : Nat) : Task α := throw code

/-- Runs a task to its exit code. -/
def run (task : Task Nat) (p : Process) (m : Machine) : Nat × Machine :=
  match (ReaderT.run task p).run.run m with
  | (.ok code, m) | (.error code, m) => (code, m)

/-- The arguments without the name of the program. -/
def args : Task (List Octets) := return (← read).args.drop 1

def writeTo (fd : Nat) (s : Octets) : Task Unit := do
  match (← read).descriptors.get? fd with
  | some id => modify (·.write id s)
  | none => return

def print (s : Octets) : Task Unit := writeTo 1 s

/-- Writes a line about something that went wrong, with the name of the program in front. -/
def complain (message : Octets) : Task Unit := do
  writeTo 2 ((← read).name ++ (": " : Text) ++ message ++ ['\n'])

/-- Complains and ends the program. -/
def fail {α : Type} (code : Nat) (message : Octets) : Task α := do
  complain message
  exit code

/-- All that is left of the input. -/
def input : Task Octets := do
  match (← read).descriptors.get? 0 with
  | some id => do
    let s := (← get).unread id
    modify (·.leaveUnread id [])
    return s
  | none => return []

def tree : Task FileTree := return (← get).tree

/-- Changes the file tree, if nothing is wrong with that. -/
def change (f : FileTree → Except OsError FileTree) : Task (Option OsError) := do
  match f (← get).tree with
  | .ok tree => do
    modify ({ · with tree := tree })
    return none
  | .error e => return some e

/-- The descriptor that a name of a device stands for. -/
def descriptorOf? (name : Octets) : Option Nat :=
  match String.ofList name with
  | "-" | "/dev/stdin" | "/proc/self/fd/0" => some 0
  | _ => if ("/dev/fd/" : Text).isPrefixOf name then Text.toNat? (name.drop 8) else none

/-- What the file of a name holds; a dash names the input. -/
def contentOf (name : Octets) : Task (Except OsError Octets) := do
  match (descriptorOf? name).bind (← read).descriptors.get? with
  | some id => do
    let s := (← get).unread id
    modify (·.leaveUnread id [])
    return .ok s
  | none => return ((← tree).read (Octets.path name)).map fun content => .ofBytes content.toBytes

/-- Whether the input is a file, so that what is not used of it can be left. -/
def inputIsFile : Task Bool := do
  let m ← get
  match ((← read).descriptors.get? 0).bind fun id => m.streams[id]? with
  | some (.file ..) => return true
  | _ => return false

/-- Leaves some of the input to be read by others. -/
def leaveInput (rest : Octets) : Task Unit := do
  match (← read).descriptors.get? 0 with
  | some id => modify (·.leaveUnread id rest)
  | none => return

/-- Where programs are looked for if the variables do not say. -/
def usualSearch : Octets := "/bin:/usr/bin"

/-- Starts a program of a name with arguments, and waits for its end. -/
def start (launch : Launcher) (words : List Octets) : Task (Except OsError Nat) := do
  let p := { (← read) with args := words }
  match launch ⟨p.name, (p.var? "PATH").getD usualSearch, true, p⟩ (← get) with
  | .ok (status, m) => do
    set m
    return .ok status
  | .error e => return .error e

/-- The exit code for a wait status, as shells count signals. -/
def codeOf (status : Nat) : Nat := if status % 128 = 0 then status / 256 else 128 + status % 128

end Task

namespace OsError

/-- The wording without the number. -/
def brief (e : OsError) : Text :=
  let words := (Text.splitOn '(' e.message).headD []
  if words.getLast? = some ' ' then words.dropLast else words

end OsError

end CompileFail
