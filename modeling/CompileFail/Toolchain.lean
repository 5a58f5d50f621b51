import CompileFail.Session

/-! The tools as they are set up before a run: whether the build program is there, and the
environment in which the compiler runs. -/

namespace CompileFail.Toolchain

/-- A build program that is given by a path, and not by a name alone, must be a file. -/
def validate (toolchain : Settings.Toolchain) (tree : FileTree) : Except Fault Unit :=
  if 1 < toolchain.msbuild.components.length ∧ !tree.isFile toolchain.msbuild then
    .error (.toolNotFound toolchain.msbuild)
  else .ok ()

/-- The command that runs a set-up script and then lists the variables. -/
def captureCommand (script : Path) : Program.Command :=
  { program := "cmd"
    args := ["/C", Octets.ofText (script.shownName ++ (" >nul && set" : Text))]
    dir := script.parent
    env := none }

/-- The present environment, overlaid with what the set-up script defines. Without a script it is
taken as it is. -/
def captureEnvironment (runner : Program.Runner) (present : Environment) (script : Path) :
    Act Environment := do
  if ← Act.inspect (·.isFile script) then
    let output ← Act.change (Program.run runner (captureCommand script))
    let env := present.overlay (Environment.definitions output.stdout)
    Act.log .debug .tools
      (("Captured " : Text) ++ Text.ofNat env.size ++
        (" developer environment variables" : Text))
    return env
  else
    Act.log .warn .tools
      (['\''] ++ script.display ++ ("' not found - compiling with the current environment" : Text))
    return present

end CompileFail.Toolchain
