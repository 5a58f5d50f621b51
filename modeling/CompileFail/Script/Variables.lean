import CompileFail.Script.Reader
import Std.Data.ExtTreeMap

/-! The variables of a shell. A variable may have a value or none yet, may be handed to programs and
may be protected from changes; in the larger shell its value may be an array. -/

namespace CompileFail.Script

inductive Value where
  | scalar (text : Text)
  /-- Elements in the order of their indices. -/
  | indexed (elements : List (Nat × Text))
  /-- Elements by their keys, in the order in which they came. -/
  | keyed (elements : List (Text × Text))
deriving DecidableEq, Repr

namespace Value

/-- The value as one text: an array stands for its first element. -/
def text? : Value → Option Text
  | scalar s => some s
  | indexed elements => (elements.find? (·.1 == 0)).map (·.2)
  | keyed elements => (elements.find? (·.1 == ['0'])).map (·.2)

/-- All elements; a single value is an array of one. -/
def toList : Value → List Text
  | scalar s => [s]
  | indexed elements => elements.map (·.2)
  | keyed elements => elements.map (·.2)

/-- Puts an element at its place. -/
def insertAt (index : Nat) (s : Text) : List (Nat × Text) → List (Nat × Text)
  | [] => [(index, s)]
  | (i, old) :: rest =>
    if index = i then (index, s) :: rest
    else if index < i then (index, s) :: (i, old) :: rest
    else (i, old) :: insertAt index s rest

def insertKey (key s : Text) : List (Text × Text) → List (Text × Text)
  | [] => [(key, s)]
  | (k, old) :: rest => if k = key then (key, s) :: rest else (k, old) :: insertKey key s rest

/-- The elements as an array with numbers for indices. -/
def elements : Option Value → List (Nat × Text)
  | none => []
  | some (scalar s) => [(0, s)]
  | some (indexed elements) => elements
  | some (keyed elements) => elements.zipIdx.map fun ((_, s), i) => (i, s)

/-- The index behind the last element. -/
def nextIndex (elements : List (Nat × Text)) : Nat := (elements.getLast?.map (·.1 + 1)).getD 0

end Value

structure Variable where
  value : Option Value := none
  exported : Bool := false
  readOnly : Bool := false
  /-- Values are numbers; what is assigned is calculated. -/
  isNumber : Bool := false
  /-- When the variable came to be. -/
  order : Nat := 0

structure Variables where
  table : Std.ExtTreeMap Text Variable := ∅
  fresh : Nat := 0

namespace Variables

instance : Inhabited Variables := ⟨{}⟩

def find? (vars : Variables) (name : Text) : Option Variable := vars.table[name]?

def value? (vars : Variables) (name : Text) : Option Value := (vars.find? name).bind (·.value)

/-- The value of a variable as one text. -/
def get? (vars : Variables) (name : Text) : Option Text := (vars.value? name).bind Value.text?

def isReadOnly (vars : Variables) (name : Text) : Bool := (vars.find? name).any (·.readOnly)

/-- Changes a variable, or a new one without a value. -/
def update (vars : Variables) (name : Text) (f : Variable → Variable) : Variables :=
  match vars.find? name with
  | some var => { vars with table := vars.table.insert name (f var) }
  | none =>
    { table := vars.table.insert name (f { order := vars.fresh }), fresh := vars.fresh + 1 }

def setValue (vars : Variables) (name : Text) (value : Value) : Variables :=
  vars.update name fun var => { var with value := some value }

/-- Gives a variable a value; of an array the first element is changed. -/
def set (vars : Variables) (name s : Text) : Variables :=
  vars.update name fun var =>
    { var with value := some (match var.value with
      | some (.indexed elements) => .indexed (Value.insertAt 0 s elements)
      | some (.keyed elements) => .keyed (Value.insertKey ['0'] s elements)
      | _ => .scalar s) }

def unset (vars : Variables) (name : Text) : Variables :=
  { vars with table := vars.table.erase name }

/-- Puts a variable back as it was. -/
def restore (vars : Variables) (name : Text) : Option Variable → Variables
  | some var => { vars with table := vars.table.insert name var }
  | none => vars.unset name

def exporting (vars : Variables) (name : Text) : Variables :=
  vars.update name fun var => { var with exported := true }

def protecting (vars : Variables) (name : Text) : Variables :=
  vars.update name fun var => { var with readOnly := true }

/-- The variables in the order of their names. -/
def toList (vars : Variables) : List (Text × Variable) := vars.table.toList

/-- In which of its compartments the plain shell keeps a variable. -/
def compartment (name : Text) : Nat :=
  let code (c : Char) : Nat := c.toNat
  (name.foldl (fun n c => n + code c) (16 * (name.head?.map code).getD 0)) % 39

/-- The variables that programs get to see: compartment by compartment, and in each of them the
older ones first. -/
def environment (vars : Variables) : List Text :=
  let shared := vars.toList.filterMap fun (name, var) =>
    match var.exported, var.value.bind Value.text? with
    | true, some s => some (compartment name, var.order, name ++ '=' :: s)
    | _, _ => none
  let before (a b : Nat × Nat × Text) : Bool :=
    a.1 < b.1 || a.1 == b.1 && a.2.1 ≤ b.2.1
  (shared.mergeSort before).map (·.2.2)

/-- Variables as a program finds them when it starts. Names that no variable can have are left
out. -/
def ofEnvironment (env : List Text) (vars : Variables) : Variables :=
  env.foldl (fun vars entry =>
    match Text.splitOnce? '=' entry with
    | some (name, s) => if isName name then (vars.set name s).exporting name else vars
    | none => vars) vars

end Variables

end CompileFail.Script
