import CompileFail.CompilerCall
import CompileFail.FileTree.Access
import CompileFail.Program

/-! Compilers. A compiler is given a file and answers whether it compiles and what there is to say
about it, or why it could not be asked. -/

namespace CompileFail

structure Compilation where
  success : Bool
  exitCode : Option Nat
  /-- What the compiler printed; it starts by repeating the name of the file. -/
  output : Text
deriving DecidableEq, Repr

abbrev Compiler := Path → FileTree → Except Fault Compilation × FileTree

namespace Compiler

/-- A compiler that reads the file, changes none, and answers by the path and the text alone. -/
def ofAnswers (answer : Path → Text → Except Fault Compilation) : Compiler := fun file tree =>
  (match tree.readText file with
    | .error e => .error (.io e)
    | .ok text => answer file text, tree)

/-- The command that checks one file by a recipe, in an environment that replaces the present one.
The file must lie in the project directory. -/
def commandFor (recipe : Recipe) (env : Environment) (file : Path) :
    Except Fault Program.Command :=
  match file.stripPrefix? recipe.projectDir with
  | none => .error (.outsideProject file recipe.projectDir)
  | some relative =>
    .ok
      { program := Octets.ofText recipe.program
        args := recipe.args.map Octets.ofText ++ [relative.text]
        dir := some recipe.projectDir
        env := some env }

/-- Compiles by running the compiler as the recipe says. -/
def ofRecipe (recipe : Recipe) (env : Environment) (runner : Program.Runner) : Compiler :=
  fun file tree =>
    match commandFor recipe env file with
    | .error fault => (.error fault, tree)
    | .ok command =>
      match Program.run runner command tree with
      | (.error fault, tree) => (.error fault, tree)
      | (.ok output, tree) => (.ok ⟨output.success, output.exitCode, output.stdout⟩, tree)

end Compiler

end CompileFail
