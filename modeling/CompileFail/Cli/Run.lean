import CompileFail.Checks
import CompileFail.Cli.Arguments
import CompileFail.Cli.Help
import CompileFail.Settings.Load
import CompileFail.Synthesis
import CompileFail.Toolchain

/-! A run of the program: from its arguments and its environment to what it prints, the code it
exits with and the files it leaves. -/

namespace CompileFail.Cli

/-- What a run finds outside of its arguments. -/
structure Surroundings where
  env : Environment
  runner : Program.Runner
  /-- What keeps the system from starting so many threads, if anything. -/
  threads : Nat → Option OsError := fun _ => none

/-- What is known before anything is built. -/
structure Survey where
  options : Options
  target : Path
  env : Environment
  layout : Layout

/-- A path as seen from the root. One that is relative needs a working directory that is still there. -/
def resolve (p : Path) (tree : FileTree) : Except Fault Path :=
  if p.text.isEmpty then .error (.unresolved p .emptyPath)
  else if p.isAbsolute || (tree.entry? tree.workDir).any Entry.isDir then
    .ok (Path.absolute tree.workDir.path p)
  else .error (.unresolved p .notFound)

/-- Looks at all that the arguments and the settings name. -/
def survey (surroundings : Surroundings) (settings : Settings) (arguments : Arguments) :
    Act Survey := do
  let options ← Act.inspect? fun _ =>
    Options.ofArguments arguments.path arguments.configuration arguments.workers
  let target ← Act.inspect? (resolve options.path)
  Act.inspect? (Target.validate settings.check target)
  Act.inspect? (Toolchain.validate settings.toolchain)
  let env ← Toolchain.captureEnvironment surroundings.runner surroundings.env
    settings.toolchain.vcvars
  let layout ← Layout.discover (← Act.inspect (Target.dirOf · target))
  Act.log .info .run
    (("Solution directory: " : Text) ++ layout.solutionDir.display ++
      (", project directory: " : Text) ++ layout.projectDir.display)
  return ⟨options, target, env, layout⟩

/-- All that the checks of a run need. -/
structure Plan where
  verifier : Verifier
  files : List Path
  workers : Nat
  /-- The directory that titles are relative to. -/
  titleRoot : Path

/-- Obtains the recipe and lists the files. -/
def prepare (surroundings : Surroundings) (settings : Settings) (arguments : Arguments) :
    Act Plan := do
  let found ← survey surroundings settings arguments
  let system := BuildSystem.ofProgram settings.toolchain surroundings.runner
  let recipe ←
    Recipe.synthesize system found.layout found.options.configuration settings.check
  let files ← Target.collect settings.check found.target
  return {
    verifier :=
      { compiler := Compiler.ofRecipe recipe found.env surroundings.runner
        configuration := found.options.configuration
        toolName := settings.check.toolName }
    files := files
    workers := found.options.workers
    titleRoot := found.layout.targetDir }

/-- Checks what the arguments ask for; answers with the directory that titles are relative to. -/
def check (surroundings : Surroundings) (settings : Settings) (arguments : Arguments) :
    Act Path := do
  let plan ← prepare surroundings settings arguments
  Checks.run surroundings.threads plan.verifier plan.files plan.workers
  return plan.titleRoot

/-- The settings that the arguments name. A failure is told in the words of its whole chain, with
the file in front. -/
def settingsFor (arguments : Arguments) (tree : FileTree) : Except (List Text) Settings :=
  match arguments.config with
  | none => .ok {}
  | some p =>
    match Settings.load tree p with
    | .ok settings => .ok settings
    | .error fault =>
      .error ((("Failed to load configuration from " : Text) ++ p.display) :: fault.chain)

/-- How a run comes to its end. -/
inductive Finish where
  /-- It had something to say about itself. -/
  | helped (lines : List HelpLine)
  | named
  | misused (cause : Misuse)
  /-- It could not be carried through, for reasons that lie behind one another. -/
  | aborted (chain : List Text) (session : Session)
  | checked (titleRoot : Path) (format : Summary.Format) (session : Session)

/-- Carries out what the arguments ask for. -/
def carryOut (surroundings : Surroundings) (args : List Text) (tree : FileTree) : Finish :=
  match Arguments.read args with
  | .error .shortHelp => .helped shortHelp
  | .error .longHelp => .helped longHelp
  | .error .version => .named
  | .error (.misuse cause) => .misused cause
  | .ok arguments =>
    match settingsFor arguments tree with
    | .error chain => .aborted chain { tree := tree }
    | .ok settings =>
      match (check surroundings settings arguments).run.run { tree := tree } with
      | (.error fault, s) => .aborted fault.chain s
      | (.ok titleRoot, s) => .checked titleRoot arguments.format s

/-- How a run is shown. -/
structure Display where
  filter : Log.Filter := .default
  logInColour : Bool := true
  summaryInColour : Bool := false
  helpInColour : Bool := false
  elapsed : Duration
  /-- The time that stands in front of the entries of the log. -/
  time : Text

/-- How the environment wants a run to be shown: it chooses the entries of the log, may ask for a
log without colours and may demand colours in the summary and in the help. -/
def Display.ofEnvironment (env : Environment) (elapsed : Duration) (time : Text) : Display :=
  let isGiven (name : Text) : Bool := (env.get? name).any fun value => !value.isEmpty
  { filter := ((env.get? "RUST_LOG").bind Log.Filter.ofText?).getD .default
    logInColour := !isGiven "NO_COLOR"
    summaryInColour := (env.get? "CLICOLOR_FORCE").any fun value => value != ['0']
    helpInColour := isGiven "CLICOLOR_FORCE" && !isGiven "NO_COLOR"
    elapsed := elapsed
    time := time }

/-- What an event adds to the error stream. -/
def Display.errorText (display : Display) : Event → Text
  | .logged entry =>
    if display.filter.hears entry then entry.render display.logInColour display.time else []
  | .reported step => ((Report.start ⟨[]⟩).add step).err.flatten
  | .built _ | .touched _ | .wrote _ | .compiled _ _ | .removed _ => []

/-- The last lines of a run, which tell how long it took. -/
def Display.closing (display : Display) : Text := '\n' :: display.elapsed.elapsed ++ ['\n']

/-- What is seen of a run. -/
structure Result where
  exitCode : Nat
  stdout : Text
  stderr : Text
deriving DecidableEq, Repr

/-- Shows a run. Help and the version come without the closing lines. -/
def Finish.result (display : Display) : Finish → Result
  | .helped lines => ⟨Outcome.passed.exitCode, HelpLine.renderAll display.helpInColour lines, []⟩
  | .named => ⟨Outcome.passed.exitCode, versionText, []⟩
  | .misused cause =>
    { exitCode := Outcome.technicalError.exitCode
      stdout := display.closing
      stderr := ("error: " : Text) ++ cause.message ++ ['\n'] }
  | .aborted chain s =>
    { exitCode := Outcome.technicalError.exitCode
      stdout := display.closing
      stderr := s.events.flatMap display.errorText ++
        ("ERROR: " : Text) ++ (": " : Text).intercalate chain ++ ['\n'] }
  | .checked titleRoot format s =>
    let report := s.report titleRoot
    let summary := Summary.ofReport report display.elapsed
    let text := summary.render format display.summaryInColour
    { exitCode := summary.outcome.exitCode
      stdout := (report.add (.print text)).out.flatten ++ display.closing
      stderr := s.events.flatMap display.errorText }

end CompileFail.Cli
