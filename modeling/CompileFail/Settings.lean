import CompileFail.Fault
import CompileFail.Text.Blank

/-! The settings of a run: where the tools are, what counts as a source file, and how many workers
share the checks. -/

namespace CompileFail

/-- The directory in which the build program and the set-up script are looked for by default. -/
def Settings.installation : Text :=
  "C:\\Program Files\\Microsoft Visual Studio\\2022\\Community"

structure Settings.Toolchain where
  msbuild : Path := ⟨Settings.installation ++ ("\\MSBuild\\Current\\Bin\\amd64\\MSBuild.exe" : Text)⟩
  /-- The script that sets up the environment of the compiler. -/
  vcvars : Path := ⟨Settings.installation ++ ("\\VC\\Auxiliary\\Build\\vcvars64.bat" : Text)⟩
  platform : Text := "x64"
deriving DecidableEq, Repr

structure Settings.Check where
  /-- The extension of source files, without its dot. -/
  sourceExtension : Text := "cpp"
  /-- The word that marks the names of the copies that are compiled. -/
  toolName : Text := "checkce"
deriving DecidableEq, Repr

/-- The case of the extension does not count. -/
def Settings.Check.isSourceFile (settings : Settings.Check) (p : Path) : Bool :=
  p.hasExtension (Octets.ofText settings.sourceExtension)

structure Settings where
  toolchain : Settings.Toolchain := {}
  check : Settings.Check := {}
deriving DecidableEq, Repr

/-- What is asked for on the command line. -/
structure Options where
  path : Path
  configuration : Text
  workers : Nat
deriving DecidableEq, Repr

namespace Options

/-- Numbers of this size and above cannot be read. -/
def numberLimit : Nat := Nat.pow 2 64

/-- A number without a sign or with a plus. -/
def number? (s : Text) : Option Nat :=
  let digits := match s with
    | '+' :: digits => digits
    | digits => digits
  (Text.toNat? digits).filter (· < numberLimit)

def readWorkers (raw : Text) : Except Fault Nat :=
  match number? (Text.trim raw) with
  | none => .error (.workersNotAnInteger raw)
  | some n =>
    if minWorkers ≤ n ∧ n ≤ maxWorkers then .ok n else .error (.workersOutOfRange n)

def ofArguments (path : Path) (configuration rawWorkers : Text) : Except Fault Options := do
  return ⟨path, configuration, ← readWorkers rawWorkers⟩

end Options

end CompileFail
