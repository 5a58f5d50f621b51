import CompileFail.Script.Arithmetic
import CompileFail.Script.Shell

/-! Giving values to variables of a shell, with what may be wrong about that. -/

namespace CompileFail.Script

namespace Exec

/-- What is said about a variable that may not be changed. -/
def readOnlyMessage (dialect : Dialect) (name : Text) : Text :=
  match dialect with
  | .dash => name ++ (": is read only" : Text)
  | .bash => name ++ (": readonly variable" : Text)

/-- Calculates an expression and keeps what it assigns. -/
def calculate (lead : Text) (s : Text) : Exec Int := do
  let sh ← get
  let (result, vars) := Arithmetic.calculate sh.dialect s sh.vars
  set { sh with vars := vars }
  match result with
  | .ok n => return n
  | .error message => giveUp (lead ++ message)

/-- Gives up if a variable may not be changed. -/
def checkWritable (name : Text) : Exec Unit := do
  let sh ← get
  if sh.vars.isReadOnly name then giveUp (readOnlyMessage sh.dialect name)

/-- The value that a variable takes when it is assigned a text: that of a number is calculated. -/
def convert (name s : Text) : Exec Text := do
  if ((← get).vars.find? name).any (·.isNumber) then
    return Arithmetic.toText (← calculate [] s)
  else return s

/-- Follows up on a new value of a variable. -/
def noted (name : Text) : Exec Unit := modify fun sh =>
  let sh := if name = "OPTIND" then { sh with optionOffset := 0 } else sh
  if sh.isOn "allexport" then { sh with vars := sh.vars.exporting name } else sh

/-- Gives a variable a value. -/
def assign (name s : Text) : Exec Unit := do
  checkWritable name
  let s ← convert name s
  modify (·.set name s)
  noted name

/-- Gives a variable a value, behind what it has if `append` is set. -/
def assignOrAppend (name : Text) (append : Bool) (s : Text) : Exec Unit := do
  if append then
    let sh ← get
    let old := (sh.var? name).getD []
    if (sh.vars.find? name).any (·.isNumber) then assign name (old ++ '+' :: s)
    else assign name (old ++ s)
  else assign name s

/-- The index that a number asks for; a negative one counts from the end. -/
def indexOf (name : Text) (n : Int) : Exec Nat := do
  if n < 0 then
    let size := Value.nextIndex ((← get).elements name)
    if size + n < 0 then giveUp (name ++ (": bad array subscript" : Text))
    else return (size + n).toNat
  else return n.toNat

/-- Gives an element of an array a value. -/
def assignElement (name key s : Text) (append : Bool) : Exec Unit := do
  checkWritable name
  let sh ← get
  match sh.vars.value? name with
  | some (.keyed elements) =>
    let old := ((elements.find? (·.1 == key)).map (·.2)).getD []
    let s := if append then old ++ s else s
    set { sh with vars := sh.vars.setValue name (.keyed (Value.insertKey key s elements)) }
  | _ => do
    let n ← calculate [] key
    let index ← indexOf name n
    let s ← convert name s
    modify fun sh =>
      let elements := Value.elements (sh.vars.value? name)
      let old := ((elements.find? (·.1 == index)).map (·.2)).getD []
      let s := if append then old ++ s else s
      { sh with vars := sh.vars.setValue name (.indexed (Value.insertAt index s elements)) }

/-- Makes an array of elements that come one after another. -/
def assignList (name : Text) (values : List Text) : Exec Unit := do
  checkWritable name
  modify fun sh =>
    { sh with
      vars := sh.vars.setValue name (.indexed (values.zipIdx.map fun (s, i) => (i, s))) }

end Exec

end CompileFail.Script
