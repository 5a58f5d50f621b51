import CompileFail.Text.Line
import Std.Data.ExtTreeMap

/-! Environments map the names of variables to their values. -/

namespace CompileFail

structure Environment where
  vars : Std.ExtTreeMap Text Text

namespace Environment

def empty : Environment := ⟨∅⟩

instance : Inhabited Environment := ⟨empty⟩

def get? (env : Environment) (key : Text) : Option Text := env.vars[key]?

def set (env : Environment) (key value : Text) : Environment := ⟨env.vars.insert key value⟩

def unset (env : Environment) (key : Text) : Environment := ⟨env.vars.erase key⟩

/-- Gives a variable a value or takes it away. -/
def put (env : Environment) (key : Text) : Option Text → Environment
  | some value => env.set key value
  | none => env.unset key

def size (env : Environment) : Nat := env.vars.size

/-- The variables in the order of their names. -/
def toList (env : Environment) : List (Text × Text) := env.vars.toList

/-- The environment with further definitions, of which a later one wins over an earlier one. -/
def overlay (env : Environment) (definitions : List (Text × Text)) : Environment :=
  definitions.foldl (fun env (key, value) => env.set key value) env

def ofList (definitions : List (Text × Text)) : Environment := empty.overlay definitions

/-- The definitions in a listing of variables, one `KEY=VALUE` a line. Lines without an equals sign
or without a key are no definitions. -/
def definitions (listing : Text) : List (Text × Text) :=
  ((Text.lines listing).filterMap (Text.splitOnce? '=')).filter fun (key, _) => !key.isEmpty

end Environment

end CompileFail
