import CompileFail.OsError

/-! Technical failures: whatever keeps a check from being made, as opposed to a check that is made
and does not hold. -/

namespace CompileFail

inductive Fault where
  | io (cause : OsError)
  | fileRead (path : Path) (cause : OsError)
  | fileWrite (path : Path) (cause : OsError)
  | spawn (program : Text) (cause : OsError)
  | workersNotAnInteger (raw : Text)
  | workersOutOfRange (workers : Nat)
  | invalidArgument (text : Text)
  | pathNotFound (path : Path)
  | notASourceFile (path : Path)
  | ambiguousSolution (dir : Path)
  | solutionNotFound (start : Path)
  | ambiguousProject (dir : Path)
  | projectOutsideSolution (project solution : Path)
  | projectNotFound (start solution : Path)
  | outsideSolution (path solution : Path)
  | outsideProject (path project : Path)
  | invalidConfiguration (configuration : Text)
  | buildFailed
  | compileOnlyBuildFailed
  | noSourceFile (dir : Path)
  | compilerCallNotFound
  | ambiguousCompilerCall (count : Nat)
  | unrecognizedCompilerCall (line : Text)
  | unrecognizedDiagnostic (file : Path) (line : Text)
  | threadPool (cause : OsError)
  | toolNotFound (program : Path)
  /-- A settings file that is not well-formed, or in which a value has the wrong type. -/
  | malformedSettings (path : Path)
  | settings (text : Text)
  /-- A path that cannot be followed from the working directory. It has no wording of its own but goes in
  front of the cause. -/
  | unresolved (path : Path) (cause : OsError)
deriving DecidableEq, Repr

/-- The least and the greatest number of worker threads. -/
def minWorkers : Nat := 1
def maxWorkers : Nat := 20

namespace Fault

private def quoted (s : Text) : Text := ['\''] ++ s ++ ['\'']

def message : Fault → Text
  | io cause => ("IO error: " : Text) ++ cause.message
  | fileRead path cause =>
    ("Failed to read file " : Text) ++ path.display ++ (": " : Text) ++ cause.message
  | fileWrite path cause =>
    ("Failed to write file " : Text) ++ path.display ++ (": " : Text) ++ cause.message
  | spawn program cause =>
    ("Failed to run " : Text) ++ quoted program ++ (": " : Text) ++ cause.message
  | workersNotAnInteger raw =>
    ("The given number of worker threads " : Text) ++ quoted raw ++ (" is not an integer." : Text)
  | workersOutOfRange workers =>
    ("The given number of worker threads " : Text) ++ quoted (Text.ofNat workers) ++
      (" is out of range. Should be between " : Text) ++ Text.ofNat minWorkers ++ ['-'] ++
      Text.ofNat maxWorkers ++ ['.']
  | invalidArgument text => text
  | pathNotFound path =>
    ("The path " : Text) ++ quoted path.display ++
      (" is not an existing directory or file." : Text)
  | notASourceFile path =>
    ("The specified file " : Text) ++ quoted path.display ++ (" is not a .cpp file." : Text)
  | ambiguousSolution dir =>
    ("The directory " : Text) ++ quoted dir.display ++
      (" contains more than one .sln file." : Text)
  | solutionNotFound start =>
    ("No directory with a .sln file found while walking up from " : Text) ++
      quoted start.display ++ ['.']
  | ambiguousProject dir =>
    ("The directory " : Text) ++ quoted dir.display ++
      (" contains more than one .vcxproj file." : Text)
  | projectOutsideSolution project solution =>
    ("The C++ project directory " : Text) ++ quoted project.display ++
      (" is not the same or the child of the solution directory " : Text) ++
      quoted solution.display ++ ['.']
  | projectNotFound start solution =>
    ("No .vcxproj file found while walking up from " : Text) ++ quoted start.display ++
      (" to " : Text) ++ quoted solution.display ++ ['.']
  | outsideSolution path solution =>
    quoted path.display ++ (" is not inside the solution directory " : Text) ++
      quoted solution.display ++ ['.']
  | outsideProject path project =>
    quoted path.display ++ (" is not inside the project directory " : Text) ++
      quoted project.display ++ ['.']
  | invalidConfiguration configuration =>
    ("The solution does not contain " : Text) ++ quoted configuration ++
      (" as a solution configuration." : Text)
  | buildFailed => "The solution did not build successfully."
  | compileOnlyBuildFailed => "The compile-only build of the solution did not succeed."
  | noSourceFile dir => ("No .cpp file in directory " : Text) ++ quoted dir.display ++ ['.']
  | compilerCallNotFound => "No CL.exe call found in the output of MSBuild."
  | ambiguousCompilerCall count =>
    ("The output of MSBuild contains " : Text) ++ Text.ofNat count ++
      (" CL.exe calls instead of 1." : Text)
  | unrecognizedCompilerCall line => ("Unrecognized CL.exe call: " : Text) ++ line
  | unrecognizedDiagnostic file line =>
    ("Unrecognized diagnostic line format in the output for " : Text) ++ file.display ++
      (": " : Text) ++ quoted line
  | threadPool cause => ("Failed to start the worker pool: " : Text) ++ cause.message
  | toolNotFound program =>
    ("Configuration error: MSBuild not found at " : Text) ++ quoted program.display ++
      (". Install Visual Studio 2022 or set [toolchain] msbuild in the config file." : Text)
  | malformedSettings path =>
    ("Configuration error: " : Text) ++ path.display ++ (": TOML parse error" : Text)
  | settings text => ("Configuration error: " : Text) ++ text
  | unresolved path _ => ("Failed to resolve " : Text) ++ quoted path.display

/-- The answer of the system that lies behind a failure. -/
def cause? : Fault → Option OsError
  | io cause | fileRead _ cause | fileWrite _ cause | spawn _ cause | threadPool cause
  | unresolved _ cause => some cause
  | _ => none

end Fault

/-- The message of an answer of the system, and of the answers behind it. -/
def OsError.chain : OsError → List Text
  | .walk path cause => (OsError.walk path cause).message :: cause.chain
  | e => [e.message]

/-- The message of a failure followed by those of its causes. That of the pool has a cause of its own, in the
words of the system. -/
def Fault.chain (fault : Fault) : List Text :=
  fault.message :: match fault with
    | .threadPool cause => cause.message :: cause.chain
    | _ => match fault.cause? with | some cause => cause.chain | none => []

end CompileFail
