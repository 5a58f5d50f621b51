import CompileFail.Session

/-! The directories that frame a run. The solution is found by looking upwards from the target for
the first directory with a solution file; the project is the nearest one on the same way, and must
be the solution directory or a child of it. -/

namespace CompileFail

structure Layout where
  solutionDir : Path
  /-- The directory that the compiler is run in, and that its paths are relative to. -/
  projectDir : Path
  /-- The directory of the target. -/
  targetDir : Path
deriving DecidableEq, Repr

namespace Layout

def solutionExtension : Octets := "sln"

def projectExtension : Octets := "vcxproj"

/-- The number of files with an extension in a directory. -/
def countFiles (tree : FileTree) (extension : Octets) (dir : Path) : Except Fault Nat :=
  match tree.list dir with
  | .error e => .error (.io e)
  | .ok members =>
    .ok (members.countP fun (name, _) =>
      (dir.join name).hasExtension extension && tree.isFile (dir.join name))

/-- The first of some directories with a solution file. It must not hold two of them. -/
def solutionAmong (tree : FileTree) (start : Path) : List Path → Except Fault Path
  | [] => .error (.solutionNotFound start)
  | dir :: rest => do
    match ← countFiles tree solutionExtension dir with
    | 0 => solutionAmong tree start rest
    | 1 => .ok dir
    | _ => .error (.ambiguousSolution dir)

def findSolution (tree : FileTree) (start : Path) : Except Fault Path :=
  solutionAmong tree start start.ancestors

/-- Whether a directory is the solution directory or lies directly in it. -/
def belongsTo (solution dir : Path) : Bool :=
  dir.same solution || dir.parent.any (·.same solution)

/-- The first of some directories with a project file, of which none behind the solution directory
is looked at. It must not hold two of them. -/
def projectAmong (tree : FileTree) (start solution : Path) : List Path → Except Fault Path
  | [] => .error (.projectNotFound start solution)
  | dir :: rest => do
    match ← countFiles tree projectExtension dir with
    | 0 =>
      if dir.same solution then .error (.projectNotFound start solution)
      else projectAmong tree start solution rest
    | 1 =>
      if belongsTo solution dir then .ok dir else .error (.projectOutsideSolution dir solution)
    | _ => .error (.ambiguousProject dir)

def findProject (tree : FileTree) (start solution : Path) : Except Fault Path :=
  if start.startsWith solution then projectAmong tree start solution start.ancestors
  else .error (.outsideSolution start solution)

/-- The layout around a target directory. -/
def discover (targetDir : Path) : Act Layout := do
  let solution ← Act.inspect? (findSolution · targetDir)
  Act.log .debug .layout (("Solution directory: " : Text) ++ solution.display)
  let project ← Act.inspect? (findProject · targetDir solution)
  Act.log .debug .layout (("Project directory: " : Text) ++ project.display)
  return ⟨solution, project, targetDir⟩

end Layout

namespace Target

/-- A target is a directory or a source file. -/
def validate (settings : Settings.Check) (target : Path) (tree : FileTree) : Except Fault Unit :=
  if tree.isDir target then .ok ()
  else if tree.isFile target then
    if settings.isSourceFile target then .ok () else .error (.notASourceFile target)
  else .error (.pathNotFound target)

/-- The target itself, or the directory of a target that is a file. -/
def dirOf (tree : FileTree) (target : Path) : Path :=
  if tree.isFile target then target.parent.getD ⟨[]⟩ else target

/-- The source files of a target: the file itself, or all below a directory in the order of the
walk. Nothing must keep the walk from looking at what is there. -/
def sourceFiles (settings : Settings.Check) (target : Path) (tree : FileTree) :
    Except Fault (List Path) :=
  if tree.isFile target then .ok [target]
  else match (tree.walk target).mapM id with
    | .error e => .error (.io e)
    | .ok entries =>
      .ok ((entries.filter fun (p, entry) => entry.isFile && settings.isSourceFile p).map (·.1))

/-- Lists the source files of a target and tells the log about a directory. -/
def collect (settings : Settings.Check) (target : Path) : Act (List Path) := do
  let files ← Act.inspect? (sourceFiles settings target)
  if ← Act.inspect (!·.isFile target) then
    Act.log .debug .checks
      (("Found " : Text) ++ Text.ofNat files.length ++ (" source files under " : Text) ++
        target.display)
  return files

end Target

end CompileFail
