import CompileFail.FileTree.Populate
import CompileFail.Utility.PathNames

/-! Programs that make, copy, move and remove files and directories. -/

namespace CompileFail.Utility

/-- Changes the file tree, or complains that something could not be done. -/
def attempt (cannot : Octets) (f : FileTree → Except OsError FileTree) : Task Bool := do
  match ← Task.change f with
  | none => return true
  | some e => do
    Task.complain (cannot ++ (": " : Text) ++ e.brief)
    return false

/-- What is at the end of a path, links followed if `followLast` is set. -/
def entryOf (name : Octets) (followLast : Bool) : Task (Except OsError (Place × Entry)) :=
  return (← Task.tree).find (Octets.path name) followLast

def isDirectory (name : Octets) : Task Bool := return (← Task.tree).isDir (Octets.path name)

/-- A name in a directory. -/
def within (dir name : Octets) : Octets :=
  if dir.getLast? = some '/' then dir ++ name else dir ++ '/' :: name

/-- The exit code for whether all went well. -/
def allDone (results : List Bool) : Nat := if results.all id then 0 else 1

/-- Text in front of a name in quotes. -/
def cannot (what : String) (name : Octets) : Octets :=
  ("cannot " : Text) ++ what.toList ++ ' ' :: inQuotes name

/-- The directories that lead to a path, and the path itself, as they are written. -/
def leadingNames (name : Octets) : List Octets :=
  let pieces := Text.splitOn '/' (dropSlashes name)
  ((List.range pieces.length).map fun i => ['/'].intercalate (pieces.take (i + 1))).filter
    (!·.isEmpty)

def mkdir : Task Nat := do
  let g ← given (.ofLetters "m:pvZ" [("parents", 'p'), ("verbose", 'v'), ("mode", 'm')])
  if g.operands.isEmpty then failMissing []
  let make (name : Octets) : Task Bool := do
    let done ← attempt (cannot "create directory" name) (·.makeNewDir (Octets.path (dropSlashes name)))
    if done && g.has 'v' then
      Task.print ((← read).name ++ (": created directory " : Text) ++ inQuotes name ++ ['\n'])
    return done
  let results ← g.operands.mapM fun name => do
    if g.has 'p' then
      (leadingNames name).foldlM (fun fine dir => do
        if !fine then return false
        else if ← isDirectory dir then return true
        else match ← entryOf dir false with
          | .ok _ => do
            let last := dir == dropSlashes name
            Task.complain (cannot "create directory" dir ++
              (if last then ": File exists" else ": Not a directory").toList)
            return false
          | .error _ => make dir) true
    else make name
  return allDone results

def rmdir : Task Nat := do
  let g ← given (.ofLetters "pv" [("parents", 'p'), ("verbose", 'v'), ("ignore-fail-on-non-empty", '!')])
  if g.operands.isEmpty then failMissing []
  let results ← g.operands.mapM fun name => do
    let names := if g.has 'p' then (leadingNames name).reverse else [name]
    names.foldlM (fun fine dir => do
      if !fine then return false
      if g.has 'v' then
        Task.print ((← read).name ++ (": removing directory, " : Text) ++ inQuotes dir ++ ['\n'])
      let what : String := if dir = name then "failed to remove " else "failed to remove directory "
      attempt (what.toList ++ inQuotes dir) (·.removeDir (Octets.path dir))) true
  return allDone results

def touch : Task Nat := do
  let g ← given (.ofLetters "acd:fhmr:t:"
    [("no-create", 'c'), ("date", 'd'), ("reference", 'r'), ("no-dereference", 'h'), ("time", 'x')])
  if g.operands.isEmpty then failUsage 1 "missing file operand"
  let results ← g.operands.mapM fun name => do
    let p := Octets.path name
    match (← Task.tree).find p true with
    | .ok _ => attempt (cannot "touch" name) (·.touch p)
    | .error _ =>
      if g.has 'c' then return true
      else if name.getLast? = some '/' then do
        Task.complain (("setting times of " : Text) ++ inQuotes name ++
          (": No such file or directory" : Text))
        return false
      else attempt (cannot "touch" name) (·.store p (.text []))
  return allDone results

/-- Removes what stands at a path and all below it, and says so if that is wanted. -/
def removeAll (verbose : Bool) (name : Octets) (place : Place) : Task Unit := do
  let tree ← Task.tree
  if verbose then
    (tree.part place).reverse.forM fun (other, entry) => do
      let shown := (other.drop place.length).foldl
        (fun (path : Octets) piece => within path piece) name
      Task.print ((if entry.isDir then "removed directory " else "removed ").toList ++
        inQuotes shown ++ ['\n'])
  modify fun m => { m with tree := tree.erasePart place }

def rm : Task Nat := do
  let g ← given (.ofLetters "dfiIrRv"
    [("force", 'f'), ("recursive", 'r'), ("dir", 'd'), ("verbose", 'v'), ("interactive", 'i'),
      ("preserve-root", 'P'), ("no-preserve-root", 'N'), ("one-file-system", 'O')])
  let forced := g.last? ['f', 'i'] == some 'f'
  let deep := g.has 'r' || g.has 'R'
  if g.operands.isEmpty then
    if g.has 'f' then return 0
    failMissing []
  let results ← g.operands.mapM fun name => do
    let last := baseName name
    if deep && name = ['/'] then do
      Task.complain "it is dangerous to operate recursively on '/'"
      Task.complain "use --no-preserve-root to override this failsafe"
      return false
    else if deep && (last == ['.'] || last == ['.', '.']) then do
      Task.complain (("refusing to remove '.' or '..' directory: skipping " : Text) ++ inQuotes name)
      return false
    else match ← entryOf name false with
      | .error e =>
        if forced && (e == .notFound || e == .notADirectory) then return true
        else do
          Task.complain (cannot "remove" name ++ (": " : Text) ++ e.brief)
          return false
      | .ok (place, .dir) => do
        let isEmpty := ((← Task.tree).children place).isEmpty
        if deep || g.has 'd' && isEmpty then do
          removeAll (g.has 'v') (dropSlashes name) place
          return true
        else do
          Task.complain (cannot "remove" name ++
            (if g.has 'd' then ": Directory not empty" else ": Is a directory").toList)
          return false
      | .ok (place, _) => do
        if g.has 'i' && !forced then
          Task.writeTo 2 ((← read).name ++ (": remove regular file " : Text) ++ inQuotes name ++ ("? " : Text))
          return true
        else do
          removeAll (g.has 'v') name place
          return true
  return allDone results

/-- Where files go: into a directory, or to a name. -/
structure Destination where
  target : Octets
  isDir : Bool

/-- The sources and the destination that operands name; `alone` forbids a directory as the last. -/
def destination (g : Given) (verb : String) : Task (List Octets × Destination) := do
  let alone := g.has 'T'
  match g.value? 't' with
  | some dir => do
    if g.operands.isEmpty then failUsage 1 "missing file operand"
    return (g.operands, ⟨dir, true⟩)
  | none =>
    match g.operands.reverse with
    | [] => failUsage 1 "missing file operand"
    | [one] => failUsage 1 (("missing " : Text) ++ verb.toList ++ ("file operand after " : Text) ++ inQuotes one)
    | target :: sources => do
      let sources := sources.reverse
      match ← entryOf target true with
      | .ok (_, .dir) => return (sources, ⟨target, !alone⟩)
      | .ok _ =>
        if sources.length > 1 then
          Task.fail 1 (("target " : Text) ++ inQuotes target ++ (": Not a directory" : Text))
        else return (sources, ⟨target, false⟩)
      | .error e =>
        if sources.length > 1 then
          Task.fail 1 (("target " : Text) ++ inQuotes target ++ (": " : Text) ++ e.brief)
        else return (sources, ⟨target, false⟩)

/-- The name under which a source stands at a destination. -/
def Destination.nameFor (d : Destination) (source : Octets) : Octets :=
  if d.isDir then within d.target (baseName source) else d.target

/-- Says what became of a name. -/
def announce (lead : String) (source target : Octets) : Task Unit :=
  Task.print (lead.toList ++ inQuotes source ++ (" -> " : Text) ++ inQuotes target ++ ['\n'])

def copyTable : OptTable :=
  .ofLetters "abdfiHlLnpPrRsS:t:Tuvx"
    [("archive", 'a'), ("force", 'f'), ("no-clobber", 'n'), ("no-dereference", 'P'),
      ("recursive", 'r'), ("verbose", 'v'), ("update", 'u'), ("target-directory", 't'),
      ("no-target-directory", 'T'), ("preserve", 'p'), ("dereference", 'L'),
      ("symbolic-link", 's'), ("link", 'l'), ("interactive", 'i')]

/-- Whether links are copied as they are. -/
def keepsLinks (g : Given) : Bool :=
  ["r", "R", "a", "P", "d"].any (fun letter => letter.toList.any g.has) && !g.has 'L'

/-- A name below another one, for a place below another one. -/
def nameBelow (name : Octets) (top place : Place) : Octets :=
  (place.drop top.length).foldl (fun (path : Octets) piece => within path piece) name

/-- Says that two names are of one file. -/
def sayTheSame (source target : Octets) : Task Bool := do
  Task.complain (inQuotes source ++ (" and " : Text) ++ inQuotes target ++ (" are the same file" : Text))
  return false

/-- Copies one thing: a file with its permission, a link, or a directory without what is in it. -/
def copyOne (target : Octets) (entry : Entry) : Task Bool := do
  let p := Octets.path target
  match entry with
  | .dir =>
    if ← isDirectory target then return true
    else
      attempt (("cannot create directory " : Text) ++ inQuotes target)
        (·.makeNewDir (Octets.path (dropSlashes target)))
  | .link linkTarget =>
    attempt (("cannot create symbolic link " : Text) ++ inQuotes target) fun tree => do
      let place ← tree.locate p false
      match tree.entry? place with
      | some .dir => .error (.other "File exists")
      | _ => return tree.insert place (.link linkTarget)
  | .file content executable _ => do
    let isNew := !(← Task.tree).isFile p
    attempt (("cannot create regular file " : Text) ++ inQuotes target) fun tree => do
      if target.getLast? = some '/' then throw .notADirectory
      let tree ← tree.store p content
      match isNew, ← tree.find p true with
      | true, (place, .file content _ modified) =>
        return tree.insert place (.file content executable modified)
      | _, _ => return tree
  | .device =>
    attempt (("cannot create regular file " : Text) ++ inQuotes target) (·.store p (.text []))

/-- Copies what stands at a path, with all below it if that is wanted. -/
def copyAll (g : Given) (source target : Octets) : Task Bool := do
  let put (source target : Octets) (entry : Entry) : Task Bool := do
    let isOld ← isDirectory target
    let done ← copyOne target entry
    if done && g.has 'v' && !(isOld && entry.isDir) then announce "" source target
    return done
  match ← entryOf source (!keepsLinks g), ← entryOf target false with
  | .error e, _ => do
    Task.complain (cannot "stat" source ++ (": " : Text) ++ e.brief)
    return false
  | .ok (place, .dir), found => do
    if !(g.has 'r' || g.has 'R' || g.has 'a') then
      Task.complain (("-r not specified; omitting directory " : Text) ++ inQuotes source)
      return false
    let tree ← Task.tree
    let inside := match tree.locate (Octets.path (dropSlashes target)) true with
      | .ok other => FileTree.isWithin place other && place != other
      | .error _ => false
    match found with
    | .ok (other, .dir) =>
      if place = other then return ← sayTheSame source target
    | .ok _ =>
      if !(← isDirectory target) then
        Task.complain (("cannot overwrite non-directory " : Text) ++ inQuotes target ++
          (" with directory " : Text) ++ inQuotes source)
        return false
    | .error _ => pure ()
    if inside then
      Task.complain (("cannot copy a directory, " : Text) ++ inQuotes source ++
        (", into itself, " : Text) ++ inQuotes target)
      return false
    let all := (place, Entry.dir) :: (tree.part place).filter (·.1 != place)
    let results ← all.mapM fun (other, entry) =>
      put (nameBelow source place other) (nameBelow target place other) entry
    return results.all id
  | .ok (_, _), .ok (_, .dir) => do
    Task.complain (("cannot overwrite directory " : Text) ++ inQuotes target ++
      (" with non-directory" : Text))
    return false
  | .ok (place, entry), .ok _ => do
    match ← entryOf target (!keepsLinks g) with
    | .ok (other, _) => if place = other then return ← sayTheSame source target
    | .error _ => pure ()
    if g.has 'n' then return true
    put source target entry
  | .ok (_, entry), .error _ => put source target entry

def cp : Task Nat := do
  let g ← given copyTable
  let (sources, d) ← destination g "destination "
  let results ← sources.mapM fun source => copyAll g source (d.nameFor source)
  return allDone results

/-- Moves what stands at a path to another one. -/
def moveOne (g : Given) (source target : Octets) : Task Bool := do
  match ← entryOf source false, ← entryOf target false with
  | .error e, _ => do
    Task.complain (cannot "stat" source ++ (": " : Text) ++ e.brief)
    return false
  | .ok (place, entry), found => do
    match found with
    | .ok (other, old) => do
      if place = other then return ← sayTheSame source target
      if g.has 'n' then
        Task.complain (("not replacing " : Text) ++ inQuotes target)
        return false
      if entry.isDir && !old.isDir then
        Task.complain (("cannot overwrite non-directory " : Text) ++ inQuotes target ++
          (" with directory " : Text) ++ inQuotes source)
        return false
      if !entry.isDir && old.isDir then
        Task.complain (("cannot overwrite directory " : Text) ++ inQuotes target ++
          (" with non-directory" : Text))
        return false
      if old.isDir && !((← Task.tree).children other).isEmpty then
        Task.complain (("cannot overwrite " : Text) ++ inQuotes target ++ (": Directory not empty" : Text))
        return false
    | .error _ => pure ()
    let moving : Octets := ("cannot move " : Text) ++ inQuotes source ++ (" to " : Text)
    match (← Task.tree).locate (Octets.path (dropSlashes target)) false with
    | .ok other => do
      if entry.isDir && FileTree.isWithin place other then
        Task.complain (moving ++ ("a subdirectory of itself, " : Text) ++ inQuotes target)
        return false
    | .error _ => pure ()
    let done ← attempt (moving ++ inQuotes target) fun tree => do
      if target.getLast? = some '/' && !entry.isDir then throw .notADirectory
      return tree.movePart place (← tree.locate (Octets.path (dropSlashes target)) false)
    if done && g.has 'v' then announce "renamed " source target
    return done

def mv : Task Nat := do
  let g ← given copyTable
  let (sources, d) ← destination g "destination "
  let results ← sources.mapM fun source => moveOne g source (d.nameFor source)
  return allDone results

/-- Makes links. One that is not symbolic is a copy here. -/
def ln : Task Nat := do
  let g ← given (.ofLetters "bfinPLrsS:t:Tv"
    [("symbolic", 's'), ("force", 'f'), ("no-dereference", 'n'), ("verbose", 'v'),
      ("relative", 'r'), ("target-directory", 't'), ("no-target-directory", 'T')])
  let (sources, d) ← match g.operands, g.value? 't' with
    | [], _ => failUsage 1 "missing file operand"
    | [one], none => pure ([one], Destination.mk ['.'] true)
    | _, _ => destination g "destination "
  let bare ← match ← entryOf d.target false with
    | .ok (_, .link _) => pure (g.has 'n')
    | _ => pure false
  let d := if bare then { d with isDir := false } else d
  let symbolic := g.has 's'
  let what : String := if symbolic then "symbolic" else "hard"
  let results ← sources.mapM fun source => do
    let target := if d.target = ['.'] && g.operands.length = 1 then baseName source else d.nameFor source
    let failed : Octets := ("failed to create " : Text) ++ what.toList ++ (" link " : Text) ++ inQuotes target
    let found ← entryOf source true
    let entry? : Option Entry ← match symbolic, found with
      | true, _ => pure (some (.link source))
      | false, .ok (_, .dir) => do
        Task.complain (source ++ (": hard link not allowed for directory" : Text))
        pure none
      | false, .ok (_, entry) => pure (some entry)
      | false, .error e => do
        Task.complain (("failed to access " : Text) ++ inQuotes source ++ (": " : Text) ++ e.brief)
        pure none
    match entry? with
    | none => return false
    | some entry => do
      let done ← attempt failed fun tree => do
        let place ← tree.locate (Octets.path target) false
        match tree.entry? place with
        | some .dir => .error (.other "File exists")
        | some _ => if g.has 'f' then return tree.insert place entry else .error (.other "File exists")
        | none => return tree.insert place entry
      if done && g.has 'v' then
        Task.print (inQuotes target ++ (if symbolic then " -> " else " => ").toList ++
          inQuotes source ++ ['\n'])
      return done
  return allDone results

/-- What a mode says about execution, if it says anything: an octal number or clauses with letters. -/
def executability? (old : Bool) (mode : Octets) : Option Bool :=
  if mode.all fun c => '0' ≤ c && c ≤ '7' then
    if mode.isEmpty then none
    else
      let (n, _) := Text.leadingDigits 8 mode.length mode
      some (n % 2 = 1 || n / 8 % 2 = 1 || n / 64 % 2 = 1)
  else (Text.splitOn ',' mode).foldlM (fun old clause =>
    let body := clause.dropWhile fun c => ("ugoa" : String).toList.contains c
    match body with
    | op :: letters =>
      let known (c : Char) : Bool := ("rwxXstugo" : String).toList.contains c
      if !("+-=" : String).toList.contains op || !letters.all known then none
      else
        let concerns := letters.any fun c => c == 'x' || c == 'X' && old
        some (match op with
          | '+' => old || concerns
          | '-' => if letters.any (· == 'x') then false else old
          | _ => concerns)
    | [] => none) old

def chmod : Task Nat := do
  let args ← Task.args
  let isMode (s : Octets) : Bool := match s with
    | '-' :: c :: _ => ("rwxXst" : String).toList.contains c
    | _ => false
  let minus := args.find? isMode
  let kept := match minus with
    | some mode => args.erase mode
    | none => args
  let g ← given' kept (.ofLetters "cfRv"
    [("recursive", 'R'), ("verbose", 'v'), ("silent", 'f'), ("quiet", 'f'), ("changes", 'c'),
      ("reference", 'r')])
  let (mode, names) ← match minus, g.operands with
    | some mode, names => pure (mode, names)
    | none, mode :: names => pure (mode, names)
    | none, [] => failMissing []
  if names.isEmpty then failUsage 1 (("missing operand after " : Text) ++ inQuotes mode)
  if (executability? false mode).isNone then failUsage 1 (("invalid mode: " : Text) ++ inQuotes mode)
  let results ← names.mapM fun name => do
    match ← entryOf name true with
    | .error e => do
      if !g.has 'f' then Task.complain (cannot "access" name ++ (": " : Text) ++ e.brief)
      return false
    | .ok (place, _) => do
      let tree ← Task.tree
      let part := if g.has 'R' then tree.part place
        else (tree.entry? place).toList.map fun entry => (place, entry)
      let change (tree : FileTree) (other : Place) (entry : Entry) : FileTree :=
        match entry with
        | .file content old modified =>
          tree.insert other (.file content ((executability? old mode).getD old) modified)
        | _ => tree
      modify fun m =>
        { m with tree := part.foldl (fun tree (other, entry) => change tree other entry) m.tree }
      return true
  return allDone results
where
  given' (args : List Octets) (t : OptTable) : Task Given := fun p =>
    given t { p with args := p.name :: args }

def truncate : Task Nat := do
  let g ← given (.ofLetters "cor:s:" [("size", 's'), ("no-create", 'c'), ("reference", 'r')])
  match g.value? 's' with
  | none => failUsage 1 "you must specify either '--size' or '--reference'"
  | some size => do
    let (mark, digits) := match size with
      | c :: rest => if c.isDigit then ('=', size) else (c, rest)
      | [] => ('=', [])
    match sizeOf? digits with
    | none => Task.fail 1 (("Invalid number: " : Text) ++ inQuotes size)
    | some n => do
      if g.operands.isEmpty then failUsage 1 "missing file operand"
      let results ← g.operands.mapM fun name => do
        let p := Octets.path name
        let old := ((← Task.tree).read p).toOption
        if old.isNone && g.has 'c' then return true
        let old : Octets := match old with
          | some content => .ofBytes content.toBytes
          | none => []
        let size := match mark with
          | '+' => old.length + n
          | '-' => old.length - n
          | '<' => min old.length n
          | '>' => max old.length n
          | _ => n
        let new := old.take size ++ List.replicate (size - old.length) '\x00'
        attempt (("cannot open " : Text) ++ inQuotes name ++ (" for writing" : Text))
          (·.store p (.ofBytes (Octets.toBytes new)))
      return allDone results

/-- Makes a file or a directory with a name that is not in use. -/
def mktemp : Task Nat := do
  let g ← given (.ofLetters "dp:qtuV"
    [("directory", 'd'), ("tmpdir", 'p'), ("quiet", 'q'), ("dry-run", 'u'), ("suffix", 's')])
  let template := g.operands.headD "tmp.XXXXXXXXXX"
  let marks := (template.reverse.takeWhile (· == 'X')).length
  if marks < 3 then
    Task.fail 1 (("too few X's in template " : Text) ++ inQuotes template)
  let usual : Octets := ((← read).var? "TMPDIR").getD "/tmp"
  let dir? : Option Octets := match g.value? 'p' with
    | some [] => some usual
    | some dir => some dir
    | none => if g.operands.isEmpty || g.has 't' then some usual else none
  let stem := template.take (template.length - marks)
  let tree ← Task.tree
  let nameFor (i : Nat) : Octets :=
    let digits := Text.ofNat i
    let name := stem ++ List.replicate (marks - digits.length) 'a' ++ digits ++ (g.value? 's').getD []
    match dir? with
    | some dir => within dir name
    | none => name
  let isFree (i : Nat) : Bool := !(tree.find (Octets.path (nameFor i)) false).isOk
  let name := nameFor (((List.range 1000).find? isFree).getD 0)
  if !g.has 'u' then
    let kind : String := if g.has 'd' then "directory" else "file"
    let done ← attempt (("failed to create " : Text) ++ kind.toList ++ (" via template " : Text) ++
        inQuotes template) fun tree =>
      if g.has 'd' then tree.makeNewDir (Octets.path name) else tree.store (Octets.path name) (.text [])
    if !done then Task.exit 1
  Task.print (name ++ ['\n'])
  return 0

end CompileFail.Utility
