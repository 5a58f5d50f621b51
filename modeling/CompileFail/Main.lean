import CompileFail.Cli.Run
import CompileFail.Host

/-! The program. It takes a picture of the files that a run can come across, carries the run out on
the picture and prints what is seen of it. -/

namespace CompileFail.Picture

/-- Files above this size are pictured without their content. -/
def sizeLimit : Nat := Nat.pow 2 24

def pathOf (s : String) : Path := Path.ofText s.toList

def spelled (p : Path) : String := String.ofList p.display

def keep (tree : FileTree) (result : Except OsError FileTree) : FileTree :=
  result.toOption.getD tree

/-- Adds what stands at a path; `full` asks for the content of a file. -/
def addEntry (full : Bool) (p : String) (tree : FileTree) : IO FileTree := do
  try
    let place := (← IO.currentDir) / p
    let info ← place.symlinkMetadata
    match info.type with
    | .dir => return keep tree (tree.makeDirs (pathOf p))
    | .file =>
      let small := info.byteSize.toNat ≤ sizeLimit
      let bytes ← if full && small then IO.FS.readBinFile place else pure .empty
      return keep tree (tree.addFile (pathOf p) (Content.ofBytes bytes.toList) true)
    | .symlink =>
      let target ← IO.FS.realPath place
      return keep tree (tree.addLink (pathOf p) (pathOf target.toString).text)
    | .other => return tree
  catch _ => return tree

/-- The paths of what stands directly in a directory. -/
def members (p : String) : IO (List String) := do
  try
    let entries ← ((← IO.currentDir) / p).readDir
    return entries.toList.map fun entry => entry.path.toString
  catch _ => return []

/-- Adds a directory and everything below it. -/
partial def addBelow (p : String) (tree : FileTree) : IO FileTree := do
  let mut tree ← addEntry true p tree
  let info? ← try pure (some (← ((← IO.currentDir) / p).symlinkMetadata)) catch _ => pure none
  if let some info := info? then
    if info.type == .dir then
      for member in ← members p do
        tree ← addBelow member tree
  return tree

/-- Adds the members of the directories above a path, without the content of files. -/
def addAround (p : Path) (tree : FileTree) : IO FileTree := do
  let mut tree := tree
  for dir in p.ancestors.drop 1 do
    for member in ← members (spelled dir) do
      if !tree.isDir (pathOf member) && !tree.isFile (pathOf member) then
        tree ← addEntry false member tree
  return tree

/-- The variables that a run can need. -/
def variableNames : List String :=
  ["PATH", "HOME", "PWD", "TMP", "TEMP", "INCLUDE", "LIB", "LIBPATH", "RUST_LOG", "NO_COLOR",
   "CLICOLOR_FORCE", "RUST_MIN_STACK"]

def environment : IO Environment := do
  let mut env := Environment.empty
  for name in variableNames do
    if let some value ← IO.getEnv name then
      env := env.set name value
  return env

/-- Adds the tools that the settings name, by their paths or by names to be looked for. -/
def addTools (env : Environment) (toolchain : Settings.Toolchain) (tree : FileTree) :
    IO FileTree := do
  let mut tree := tree
  let dirs := Text.splitOn ':' ((env.get? "PATH").getD Host.defaultSearch)
  for tool in [toolchain.msbuild, toolchain.vcvars, ⟨"cmd".toList⟩] do
    tree ← addEntry true (spelled tool) tree
    for dir in dirs do
      tree ← addEntry true (spelled ((Path.ofText dir).join tool.text)) tree
  return tree

/-- The picture for a run with the given arguments. -/
def take (env : Environment) (args : List Text) : IO FileTree := do
  let here := pathOf (← IO.currentDir).toString
  let mut tree := keep .empty (Host.install .empty)
  tree := keep tree (tree.makeDirs here)
  if let .ok (place, .dir) := tree.find here true then
    tree := tree.atDir place
  if let .ok arguments := Cli.Arguments.read args then
    let target := Path.absolute here arguments.path
    tree ← addEntry true (spelled target) tree
    tree ← addBelow (spelled (Target.dirOf tree target)) tree
    tree ← addAround target tree
    if let .ok solution := Layout.findSolution tree (Target.dirOf tree target) then
      tree ← addBelow (spelled solution) tree
    if let some config := arguments.config then
      tree ← addEntry true (spelled (Path.absolute here config)) tree
    if let .ok settings := Cli.settingsFor arguments tree then
      tree ← addTools env settings.toolchain tree
  return tree

end CompileFail.Picture

open CompileFail in
def main (args : List String) : IO UInt32 := do
  let start ← IO.monoNanosNow
  let args := args.map String.toList
  let env ← Picture.environment
  let tree ← Picture.take env args
  let finish ← IO.lazyPure fun _ => Cli.carryOut ⟨env, Host.runner env, Host.threads env⟩ args tree
  let elapsed : Duration := ⟨(← IO.monoNanosNow) - start⟩
  let result := finish.result (.ofEnvironment env elapsed (elapsed.elapsed.drop 13))
  (← IO.getStderr).putStr (String.ofList result.stderr)
  (← IO.getStdout).putStr (String.ofList result.stdout)
  return UInt32.ofNat result.exitCode
