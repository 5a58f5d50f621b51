import CompileFail.CompilerCall
import CompileFail.Layout

/-! How the recipe for the checks is obtained. After a full build one source file is made stale, so
that the next build calls the compiler on it alone and shows the call in its output. -/

namespace CompileFail

/-- The smaller of two sized files, of equal ones the first. -/
def smaller (best : Nat × Path) (other : Nat × Path) : Nat × Path :=
  if best.1 ≤ other.1 then best else other

/-- The source files among some entries with their sizes. A file whose path cannot be followed, because it is
too long, has no size to be told and is passed over. -/
def sizedFiles (settings : Settings.Check) (tree : FileTree) (entries : List (Path × Entry)) :
    List (Nat × Path) :=
  entries.filterMap fun
    | (p, .file content _ _) =>
      if settings.isSourceFile p && (tree.find p true).isOk then some (content.size, p) else none
    | _ => none

/-- The first among the smallest source files below a directory. What cannot be looked at is passed over. -/
def smallestSourceFile (settings : Settings.Check) (dir : Path) (tree : FileTree) :
    Option Path :=
  match sizedFiles settings tree ((tree.walk dir).filterMap Except.toOption) with
  | [] => none
  | first :: rest => some (rest.foldl smaller first).2

/-- Builds the solution. -/
def BuildSystem.run (system : BuildSystem) (solutionDir : Path) (configuration : Text)
    (mode : Build.Mode) : Act Program.Output := do
  Act.log .info .tools
    (("Building " : Text) ++ solutionDir.display ++ [' ', '('] ++ mode.text ++
      (", configuration=" : Text) ++ configuration ++ [')'])
  Act.emit (.built mode)
  Act.change (system solutionDir configuration mode)

/-- Gives a file the present time. -/
def touch (file : Path) : Act Unit := do
  Act.log .debug .template (("Touching " : Text) ++ file.display)
  Act.change fun tree =>
    match tree.touch file with
    | .ok tree => (.ok (), tree)
    | .error e => (.error (.fileWrite file e), tree)
  Act.emit (.touched file)

/-- The recipe in the output of a build that only compiles. -/
def Recipe.ofOutput (settings : Settings.Check) (projectDir : Path) (output : Text) :
    Except Fault Recipe := do
  let line ← CompilerCall.findLine output
  let call ← CompilerCall.ofLine line settings.sourceExtension
  return { toCompilerCall := call, projectDir := projectDir }

/-- The full build, without which nothing else is tried. -/
def buildFull (system : BuildSystem) (layout : Layout) (configuration : Text) : Act Unit := do
  let full ← system.run layout.solutionDir configuration .full
  if full.success then return
  else if CompilerCall.refusesConfiguration full.stdout then throw (.invalidConfiguration configuration)
  else
    Act.log .debug .template (("Full build output:\n" : Text) ++ full.stdout)
    throw .buildFailed

/-- Makes the smallest source file of the target stale. -/
def makeStale (settings : Settings.Check) (layout : Layout) : Act Unit := do
  match ← Act.inspect (smallestSourceFile settings layout.targetDir) with
  | none => throw (.noSourceFile layout.targetDir)
  | some smallest => touch smallest

/-- The build that compiles what is stale; answers with its output. -/
def buildStale (system : BuildSystem) (layout : Layout) (configuration : Text) : Act Text := do
  let compileOnly ← system.run layout.solutionDir configuration .compileOnly
  if compileOnly.success then return compileOnly.stdout
  else
    Act.log .debug .template (("Compile-only build output:\n" : Text) ++ compileOnly.stdout)
    throw .compileOnlyBuildFailed

/-- Obtains the recipe from a build system. -/
def Recipe.synthesize (system : BuildSystem) (layout : Layout) (configuration : Text)
    (settings : Settings.Check) : Act Recipe := do
  buildFull system layout configuration
  makeStale settings layout
  let output ← buildStale system layout configuration
  let recipe ← Act.inspect? fun _ => Recipe.ofOutput settings layout.projectDir output
  Act.log .info .template (("Compiler invocation: " : Text) ++ recipe.display)
  return recipe

end CompileFail
