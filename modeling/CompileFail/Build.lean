import CompileFail.Program
import CompileFail.Settings

/-! The build of a solution. A full build brings everything up to date; after it a build that only
compiles shows how the build calls the compiler on the files that are stale. -/

namespace CompileFail

namespace Build

inductive Mode where
  | full
  | compileOnly
deriving DecidableEq, Repr

def Mode.text : Mode → Text
  | full => "Full"
  | compileOnly => "CompileOnly"

/-- The arguments that ask for a build. -/
def arguments (platform configuration : Text) (mode : Mode) : List Text :=
  [("/p:Configuration=" : Text) ++ configuration, ("/p:Platform=" : Text) ++ platform] ++
    match mode with
    | .full => []
    | .compileOnly => ["/t:ClCompile"]

end Build

/-- A build system is given the solution directory, the configuration and the mode. -/
abbrev BuildSystem := Path → Text → Build.Mode → FileTree → Except Fault Program.Output × FileTree

namespace BuildSystem

/-- A build system whose builds end in a fixed way and change no file. -/
def fixed (full compileOnly : Program.Output) : BuildSystem := fun _ _ mode tree =>
  (.ok (match mode with | .full => full | .compileOnly => compileOnly), tree)

/-- Builds by running the build program of the settings in the solution directory. -/
def ofProgram (toolchain : Settings.Toolchain) (runner : Program.Runner) : BuildSystem :=
  fun solutionDir configuration mode =>
    Program.run runner
      { program := toolchain.msbuild.text
        args := (Build.arguments toolchain.platform configuration mode).map Octets.ofText
        dir := some solutionDir
        env := none }

end BuildSystem

end CompileFail
