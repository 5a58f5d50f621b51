import CompileFail.FileTree.Populate
import CompileFail.Program
import CompileFail.Settings
import CompileFail.Utility

/-! A host on which programs run: a file tree with shells and the usual small programs in it.
Everything else that is run is a script with a line that names its interpreter. -/

namespace CompileFail.Host

/-- What a program of the host holds: a mark that no text has, and its name. -/
def magic : Bytes := [0x7F, 0x45, 0x4C, 0x46, 0xFF]

/-- The name of the program of the host that some bytes are. -/
def nameOf? (content : Content) : Option Text :=
  match content with
  | .binary bytes =>
    if magic.isPrefixOf bytes then some (Octets.ofBytes (bytes.drop magic.length)) else none
  | .text _ => none

/-- The directories of a host. -/
def directories : List String :=
  ["/usr/bin", "/usr/sbin", "/usr/lib", "/usr/local/bin", "/usr/local/sbin", "/usr/share", "/etc",
   "/home", "/root", "/var/tmp", "/var/log", "/opt", "/mnt", "/srv", "/media", "/proc", "/sys",
   "/run", "/dev/fd", "/boot"]

/-- Puts directories, devices, programs and some files into a file tree. -/
def install (tree : FileTree) : Except OsError FileTree := do
  let tree ← directories.foldlM (fun (tree : FileTree) dir => tree.makeDirs ⟨dir.toList⟩) tree
  let tree ← Utility.names.foldlM (fun (tree : FileTree) (name : String) =>
    let content : Content := .binary (magic ++ Octets.toBytes name.toList)
    tree.addFile ⟨("/usr/bin/" ++ name).toList⟩ content true) tree
  let tree := ["null", "zero", "full", "tty", "random", "urandom", "stdin", "stdout", "stderr"].foldl
    (fun (tree : FileTree) (name : String) => tree.insert ["dev".toList, name.toList] .device) tree
  let tree ← [("/etc/passwd", "root:x:0:0:root:/root:/bin/bash\n"), ("/etc/group", "root:x:0:\n"),
      ("/etc/hostname", "localhost\n"), ("/etc/hosts", "127.0.0.1\tlocalhost\n")].foldlM
    (fun (tree : FileTree) (path, text) =>
      tree.addFile ⟨path.toList⟩ (.text text.toList) false) tree
  let tree ← tree.addLink "/usr/bin/sh" "dash"
  let tree ← tree.addLink "/usr/bin/awk" "mawk"
  let tree ← tree.addLink "/bin" "usr/bin"
  let tree ← tree.addLink "/sbin" "usr/sbin"
  tree.addLink "/lib" "usr/lib"

/-- The interpreter that the first line of a script names, with the argument behind it. -/
def interpreter? (script : Octets) : Option (Octets × List Octets) :=
  match script.take headSize with
  | '#' :: '!' :: rest =>
    let blank (c : Char) : Bool := c == ' ' || c == '\t'
    let line := rest.takeWhile fun c => c != '\n' && c != '\x00'
    let isCut := line.length = rest.length && script.length > headSize
    let line := ((line.dropWhile blank).reverse.dropWhile (blank · && !isCut)).reverse
    let name := line.takeWhile (!blank ·)
    let arg := (line.drop name.length).dropWhile blank
    if name.isEmpty || isCut && name.length = line.length then none
    else some (name, if arg.isEmpty then [] else [arg])
  | _ => none
where
  /-- As much of a file is looked at. -/
  headSize : Nat := 255

/-- How many files may be looked at to find a program that runs a script. -/
def interpreterLimit : Nat := 6

/-- Runs the file at a path. -/
def runFile (launch : Launcher) (asScript : Bool) :
    (interpreters : Nat) → (path : Octets) → Process → Machine → Except OsError (Nat × Machine)
  | 0, _, _, _ => .error .tooManyLinks
  | interpreters + 1, path, p, m => do
    match ← m.tree.find (Octets.path path) true with
    | (_, .file content true _) =>
      match nameOf? content with
      | some name => .ok (Utility.run launch name p m)
      | none =>
        match interpreter? (.ofBytes content.toBytes) with
        | some (name, arg) =>
          runFile launch asScript interpreters name
            { p with args := name :: arg ++ path :: p.args.drop 1 } m
        | none =>
          if asScript then
            runFile launch asScript interpreters "/bin/sh"
              { p with args := ("/bin/sh" : Text) :: path :: p.args.drop 1 } m
          else .error .notExecutable
    | _ => .error .permissionDenied

/-- Tries a name in some directories. One in which it may not be run counts only if there is no
other; `last` is what was found wrong with the directory before. -/
def searchIn {α : Type} (runAt : Text → Except OsError α) (name : Text) :
    List Text → (denied : Bool) → (last : OsError) → Except OsError α
  | [], denied, last => .error (if denied then .permissionDenied else last)
  | dir :: rest, denied, last =>
    match runAt (if dir.isEmpty then name else dir ++ '/' :: name) with
    | .ok result => .ok result
    | .error .permissionDenied => searchIn runAt name rest true last
    | .error .notFound => searchIn runAt name rest denied .notFound
    | .error .notADirectory => searchIn runAt name rest denied .notADirectory
    | .error e => .error e

/-- Starts a program by its path or by its name. Programs may start others, `depth` deep. -/
def launchWithin : (depth : Nat) → Launcher
  | 0, _, _ => .error .notFound
  | depth + 1, l, m =>
    let runAt (path : Text) := runFile (launchWithin depth) l.asScript interpreterLimit path l.process m
    if l.program.any (· == '/') then runAt l.program
    else if l.program.isEmpty then .error .notFound
    else if l.program.length > FileTree.nameLimit then .error .nameTooLong
    else searchIn runAt l.program (Text.splitOn ':' l.search) false .notFound

/-- How deep programs may start each other. -/
def depthLimit : Nat := 256

/-- Where programs are looked for if the environment does not say. -/
def defaultSearch : Text := "/bin:/usr/bin"

/-- No part of a command may hold a character that ends texts for the system. -/
def hasNul (command : Program.Command) : Bool :=
  let bad (s : Text) : Bool := s.any (· == '\x00')
  bad command.program || command.args.any bad || command.dir.any (bad ·.text) ||
    command.env.any fun env => env.toList.any fun (name, value) => bad name || bad value

/-- Runs commands for a process with an environment of its own. -/
def runner (present : Environment) : Program.Runner := fun command tree =>
  let result : Except OsError (Nat × Machine × Nat × Nat) := do
    if hasNul command then .error (.other "nul byte found in provided data")
    let inDir ← match command.dir with
      | none => .ok tree
      | some dir =>
        match ← tree.find dir true with
        | (place, .dir) => .ok (tree.atDir place)
        | _ => .error .notADirectory
    let env := command.env.getD present
    let m : Machine := { tree := inDir }
    let (input, m) := m.addPipe []
    let (out, m) := m.addPipe []
    let (errors, m) := m.addPipe []
    let (status, m) ← launchWithin depthLimit
      { program := command.program
        search := .ofText ((env.get? "PATH").getD defaultSearch)
        asScript := command.env.isSome && !command.program.any (· == '/')
        process :=
          { args := command.program :: command.args
            env := env.toList.map fun (name, value) => .ofText (name ++ '=' :: value)
            descriptors := [(0, input), (1, out), (2, errors)] } } m
    return (status, m, out, errors)
  match result with
  | .error e => (.error e, tree)
  | .ok (status, m, out, errors) =>
    (.ok (Program.Output.ofStatus status (m.unread out).toBytes (m.unread errors).toBytes),
      m.tree.atDir tree.workDir)

/-- The memory that a program can address, in bytes. -/
def addressLimit : Nat := Nat.pow 2 47

/-- What keeps a program from starting so many threads. Each has a stack of its own, whose size the environment
may choose. -/
def threads (present : Environment) (count : Nat) : Option OsError :=
  match (present.get? "RUST_MIN_STACK").bind Options.number? with
  | some size => if count * size < addressLimit then none else some .exhausted
  | none => none

end CompileFail.Host
