import CompileFail.CommandLine
import CompileFail.Fault
import CompileFail.Text.Line
import CompileFail.Text.Lowercase
import CompileFail.Text.WordChar

/-! The call of the compiler in the transcript of a build. The build prints one line that starts
the compiler on one source file; taken apart, with the source file cut off, it is the recipe by
which any other file of the project can be checked. -/

namespace CompileFail

structure CompilerCall where
  /-- The path of the compiler, as the line spells it. -/
  program : Text
  args : List Text
deriving DecidableEq, Repr

/-- How to check the syntax of one file of a project: the name of the file, as seen from the
project directory, is the last argument. -/
structure Recipe extends CompilerCall where
  projectDir : Path
deriving DecidableEq, Repr

namespace CompilerCall

/-- The call as it is shown in the log. -/
def display (call : CompilerCall) : Text :=
  ['"'] ++ call.program ++ ['"', ' '] ++ [' '].intercalate call.args

/-- The file name of the compiler; upper or lower case does not count. -/
def compilerName : Text := "cl.exe"

/-- Whether the name of the compiler stands as a word of its own at the start of `s`, behind the
character `previous`. -/
def startsWithCompiler (previous : Option Char) (s : Text) : Bool :=
  !previous.any isWordChar && Text.eqIgnoreCase (s.take compilerName.length) compilerName &&
    Text.startsOutsideWord (s.drop compilerName.length)

/-- Whether a line, read from behind `previous`, names the compiler. -/
def namesCompiler (previous : Option Char) : Text → Bool
  | [] => false
  | c :: s => startsWithCompiler previous (c :: s) || namesCompiler (some c) s

/-- The only line of a transcript that names the compiler. -/
def findLine (transcript : Text) : Except Fault Text :=
  match (Text.lines transcript).filter (namesCompiler none) with
  | [] => .error .compilerCallNotFound
  | [line] => .ok (Text.trim line)
  | lines => .error (.ambiguousCompilerCall lines.length)

/-- Splits a line behind the last place at which it names the compiler; a line feed ends the
search. -/
def splitProgram? (previous : Option Char) : Text → Option (Text × Text)
  | [] => none
  | c :: s =>
    if c = '\n' then none
    else match splitProgram? (some c) s with
      | some (program, rest) => some (c :: program, rest)
      | none =>
        if startsWithCompiler previous (c :: s) then some ((c :: s).splitAt compilerName.length)
        else none

/-- The text without the source file at its end. A source file in quotes has a name that is not
empty; any other one reaches back to the last blank. -/
def dropSource (s : Text) : Text :=
  match s.reverse with
  | '"' :: back =>
    match back.takeWhile (· != '"'), back.dropWhile (· != '"') with
    | _ :: _, '"' :: front => front.reverse
    | _, _ => s
  | back => (back.dropWhile (!isBlank ·)).reverse

/-- Switches that ask for debug information, which a check of the syntax has no use for. -/
def debugSwitches : List Text := ["/Z7", "/Zi", "/ZI"]

/-- The switch that asks for a check of the syntax and no output files. -/
def syntaxSwitch : Text := "/Zs"

/-- Reads the line of a call. It must name the compiler once and one file with the source
extension, and the program must not stand in quotes. -/
def ofLine (line sourceExtension : Text) : Except Fault CompilerCall :=
  let line := Text.trim line
  let lower := Text.lowercase line
  if Text.occurrences compilerName lower = 1 ∧
      Text.occurrences ('.' :: Text.lowercase sourceExtension) lower = 1 ∧
      line.head? ≠ some '"' then
    match splitProgram? none line with
    | some (program, rest) =>
      let args := (CommandLine.split (dropSource rest)).filter (!debugSwitches.contains ·)
      .ok ⟨program, args ++ [syntaxSwitch]⟩
    | none => .error (.unrecognizedCompilerCall line)
  else .error (.unrecognizedCompilerCall line)

/-- The start and the end of the sentence with which a build refuses a configuration. -/
def refusalStart : Text := "error MSB4126: The specified solution configuration \""
def refusalEnd : Text := "\" is invalid."

/-- Whether the output of a build says, on one line, that it does not know the configuration,
which it names together with the platform. -/
def refusesConfiguration (output : Text) : Bool :=
  (Text.splitOn '\n' output).any fun line =>
    ((Text.after? refusalStart line).bind (Text.splitOnce? '|')).any fun (_, rest) =>
      Text.contains refusalEnd rest

end CompilerCall

end CompileFail
