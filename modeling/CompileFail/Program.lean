import CompileFail.Environment
import CompileFail.Fault
import CompileFail.FileTree.Basic

/-! Programs that are run to their end. What running a command means is left to a runner, which
answers with the output or a reason why the program could not be started, and may change files. -/

namespace CompileFail.Program

structure Output where
  success : Bool
  /-- Missing if the program was stopped by a signal. -/
  exitCode : Option Nat
  stdout : Text
  stderr : Text
deriving DecidableEq, Repr

/-- The output of a program that ended with a wait status of the system: the signal in the low
seven bits, or none of them and the exit code in the next eight. -/
def Output.ofStatus (status : Nat) (stdout stderr : Bytes) : Output :=
  { success := status = 0
    exitCode := if status % 128 = 0 then some (status / 256 % 256) else none
    stdout := stdout.decodeLossy
    stderr := stderr.decodeLossy }

structure Command where
  program : Octets
  args : List Octets
  /-- The directory to start in, if not the present one. -/
  dir : Option Path
  /-- The variables to start with, if not those of the present process. -/
  env : Option Environment

abbrev Runner := Command → FileTree → Except OsError Output × FileTree

/-- Runs a command; a program that cannot be started is a fault. -/
def run (runner : Runner) (command : Command) (tree : FileTree) :
    Except Fault Output × FileTree :=
  match runner command tree with
  | (.ok output, tree) => (.ok output, tree)
  | (.error e, tree) => (.error (.spawn (Octets.toText command.program) e), tree)

end CompileFail.Program
