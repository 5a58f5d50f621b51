import CompileFail.FileTree.Change
import CompileFail.Utility.Options

/-! Programs that take path names apart or find out where they lead. -/

namespace CompileFail.Utility

/-- A name without separators at its end; the root stays. -/
def dropSlashes (s : Octets) : Octets :=
  let body := (s.reverse.dropWhile (· == '/')).reverse
  if body.isEmpty then s.take 1 else body

/-- The last name of a path. -/
def baseName (s : Octets) : Octets :=
  let s := dropSlashes s
  if s = ['/'] then s else (s.reverse.takeWhile (· != '/')).reverse

/-- All of a path but its last name. -/
def dirName (s : Octets) : Octets :=
  let s := dropSlashes s
  let front := (s.reverse.dropWhile (· != '/')).reverse
  if front.isEmpty then ['.'] else dropSlashes front

/-- A name without an ending, unless it is nothing else. -/
def withoutEnding (ending s : Octets) : Octets :=
  if ending.isSuffixOf s && s.length > ending.length then s.take (s.length - ending.length) else s

def basename : Task Nat := do
  let g ← given { OptTable.ofLetters "as:z" [("multiple", 'a'), ("suffix", 's'), ("zero", 'z')] with
    ordered := true }
  let ending : Octets := if g.has 'z' then ['\x00'] else ['\n']
  if g.operands.isEmpty then failMissing []
  if g.has 'a' || g.has 's' then
    Task.print (g.operands.flatMap fun s =>
      withoutEnding ((g.value? 's').getD []) (baseName s) ++ ending)
  else match g.operands with
    | [s] => Task.print (baseName s ++ ending)
    | [s, suffix] => Task.print (withoutEnding suffix (baseName s) ++ ending)
    | _ => failUsage 1 (("extra operand " : Text) ++ inQuotes (g.operands.getD 2 []))
  return 0

def dirname : Task Nat := do
  let g ← given (.ofLetters "z" [("zero", 'z')])
  if g.operands.isEmpty then failMissing []
  let ending : Octets := if g.has 'z' then ['\x00'] else ['\n']
  Task.print (g.operands.flatMap fun s => dirName s ++ ending)
  return 0

/-- The bytes of the path of a place. -/
def placeName (place : Place) : Octets := place.path.text

/-- How much of a path has to be there. -/
inductive Presence where
  | all
  | allButLast
  | nothing
deriving DecidableEq

/-- The place that a path leads to, through links. -/
def placeOf (presence : Presence) (name : Octets) : Task (Except OsError Place) := do
  let tree ← Task.tree
  let p := Octets.path name
  match presence with
  | .all => return (tree.find p true).map (·.1)
  | .allButLast => return tree.locate p true
  | .nothing =>
    match tree.locate p true with
    | .ok place => return .ok place
    | .error _ => return .ok (lexical tree p)
where
  /-- Follows the names without a look at what is there. -/
  lexical (tree : FileTree) (p : Path) : Place :=
    (FileTree.steps p.text).foldl (fun (here : Place) name =>
      if name.isEmpty || name == ['.'] then here
      else if name = ['.', '.'] then here.dropLast
      else here ++ [name]) (tree.startOf p.text)

def presenceOf (g : Given) : Presence :=
  match g.last? ['e', 'f', 'm'] with
  | some 'e' => .all
  | some 'm' => .nothing
  | _ => .allButLast

def readlink : Task Nat := do
  let g ← given (.ofLetters "efmnqsvz"
    [("canonicalize", 'f'), ("canonicalize-existing", 'e'), ("canonicalize-missing", 'm'),
      ("no-newline", 'n'), ("quiet", 'q'), ("silent", 's'), ("verbose", 'v'), ("zero", 'z')])
  if g.operands.isEmpty then failMissing []
  let bare := g.has 'n' && g.operands.length = 1
  let ending : Octets := if bare then [] else if g.has 'z' then ['\x00'] else ['\n']
  let tree ← Task.tree
  let results ← g.operands.mapM fun name => do
    let found : Except OsError Octets ←
      if (g.last? ['e', 'f', 'm']).isSome then
        pure ((← placeOf (presenceOf g) name).map placeName)
      else match tree.find (Octets.path name) false with
        | .ok (_, .link target) => pure (.ok target)
        | .ok _ => pure (.error (.other "Invalid argument"))
        | .error e => pure (.error e)
    match found with
    | .ok s => do
      Task.print (s ++ ending)
      return true
    | .error e => do
      if g.has 'v' then Task.complain (name ++ (": " : Text) ++ e.brief)
      return false
  return if results.all id then 0 else 1

def realpath : Task Nat := do
  let g ← given (.ofLetters "emLPqsz"
    [("canonicalize-existing", 'e'), ("canonicalize-missing", 'm'), ("quiet", 'q'),
      ("no-symlinks", 's'), ("strip", 's'), ("zero", 'z'), ("relative-to", 'r'),
      ("relative-base", 'b')])
  if g.operands.isEmpty then failMissing []
  let ending : Octets := if g.has 'z' then ['\x00'] else ['\n']
  let base? ← match g.value? 'r' with
    | some dir => pure (← placeOf .nothing dir).toOption
    | none => pure none
  let results ← g.operands.mapM fun name => do
    match ← placeOf (presenceOf g) name with
    | .ok place => do
      Task.print ((match base? with
        | some base => relative base place
        | none => placeName place) ++ ending)
      return true
    | .error e => do
      if !g.has 'q' then Task.complain (named name ++ (": " : Text) ++ e.brief)
      return false
  return if results.all id then 0 else 1
where
  /-- The way from one place to another. -/
  relative : Place → Place → Text
    | a :: base, b :: place =>
      if a = b then relative base place
      else ['/'].intercalate ((a :: base).map (fun _ => ['.', '.']) ++ b :: place)
    | base, place =>
      let names := base.map (fun _ => ['.', '.']) ++ place
      if names.isEmpty then ['.'] else ['/'].intercalate names

def pwd : Task Nat := do
  let g ← given (.ofLetters "LP" [("logical", 'L'), ("physical", 'P')])
  let here := placeName (← Task.tree).workDir
  let shown ← match g.last? ['L', 'P'], (← read).var? "PWD" with
    | some 'L', some dir => do
      match ← placeOf .all dir with
      | .ok place => pure (if place = (← Task.tree).workDir then dir else here)
      | .error _ => pure here
    | _, _ => pure here
  Task.print (shown ++ ['\n'])
  return 0

/-- Says where the programs of some names are. -/
def which : Task Nat := do
  let g ← given { OptTable.ofLetters "as" with code := 2 }
  let tree ← Task.tree
  let dirs := Text.splitOn ':' (((← read).var? "PATH").getD [])
  let isProgram (path : Octets) : Bool := match tree.find (Octets.path path) true with
    | .ok (_, .file _ executable _) => executable
    | _ => false
  let results ← g.operands.mapM fun name => do
    let places :=
      if name.any (· == '/') then [name]
      else dirs.map fun dir => (if dir.isEmpty then ['.'] else dir) ++ '/' :: name
    let found := places.filter isProgram
    let found := if g.has 'a' then found else found.take 1
    if !g.has 's' then Task.print (Octets.unlines found)
    return !found.isEmpty
  return if results.all id && !g.operands.isEmpty then 0 else 1

end CompileFail.Utility
