import CompileFail.Script.Expansion

/-! Redirections: what they name is found out first, and then descriptors are changed one by one. -/

namespace CompileFail.Script

namespace Redirecting

/-- A redirection whose word is known. -/
inductive Plan where
  | file (fd : Nat) (mode : Mode) (name : Text)
  | like (fd : Nat) (target : Nat)
  | close (fd : Nat)
  | content (fd : Nat) (text : Octets)
  /-- Output and errors both go to a file. -/
  | both (append : Bool) (name : Text)

/-- A plain word as it was written. -/
def written (w : Word) : Text :=
  w.flatMap fun
    | .chars text _ => text
    | .variable name none .plain _ => '$' :: name
    | _ => []

/-- The name of a file; in the larger shell it must be one word. -/
def nameOf (m : Means) (w : Word) : Exec Text := do
  if (← get).isBash then
    match ← Expansion.fieldsOf m .atStart [w] with
    | [name] => return name
    | _ => Exec.fail (written w ++ (": ambiguous redirect" : Text)) 1
  else Expansion.textOf m .atStart w

/-- The descriptor that a word names, or an end. -/
def duplicate (fd : Nat) (s : Text) : Exec Plan := do
  let sh ← get
  match s, sh.dialect with
  | ['-'], _ => return .close fd
  | _, .dash =>
    match s with
    | [c] => if c.isDigit then return .like fd (c.toNat - '0'.toNat) else badNumber
    | _ => badNumber
  | _, .bash =>
    match Text.toNat? s with
    | some n => return .like fd n
    | none =>
      if fd = 1 then return .both false s
      else Exec.fail (s ++ (": ambiguous redirect" : Text)) 1
where
  /-- In the plain shell that breaks the grammar. -/
  badNumber : Exec Plan := do
    Exec.complain "Syntax error: Bad fd number"
    throw (.exit 2)

def plan (m : Means) : Redirection → Exec Plan
  | .file fd mode w => return .file fd mode (← nameOf m w)
  | .duplicate fd w => do duplicate fd (← Expansion.textOf m .atStart w)
  | .document fd id => do
    let word := (((← get).documents.find? (·.1 == id)).map (·.2)).getD []
    return .content fd (← Expansion.textOf m .never word)
  | .text fd w => return .content fd ((← Expansion.textOf m .atStart w) ++ ['\n'])
  | .both append w => return .both append (← nameOf m w)

/-- The descriptor that a path in the directory of devices stands for. -/
def ownDescriptor? (name : Text) : Option Nat :=
  match String.ofList name with
  | "/dev/stdin" => some 0
  | "/dev/stdout" => some 1
  | "/dev/stderr" => some 2
  | _ =>
    if ("/dev/fd/" : Text).isPrefixOf name then Text.toNat? (name.drop 8)
    else if ("/proc/self/fd/" : Text).isPrefixOf name then Text.toNat? (name.drop 14)
    else none

def openingOf : Mode → Machine.Opening
  | .read => .reading
  | .write | .overwrite => .writing
  | .append => .appending
  | .readWrite => .updating

/-- What is said about a file that cannot be opened. -/
def refusal (dialect : Dialect) (mode : Mode) (name : Text) (e : OsError) : Text :=
  match dialect with
  | .bash => name ++ (": " : Text) ++ e.brief
  | .dash =>
    let creates := mode != Mode.read && mode != Mode.readWrite
    let reason : Text :=
      match e with
      | .notFound | .notADirectory => if creates then "Directory nonexistent" else "No such file"
      | e => e.brief
    (if creates then "cannot create " else "cannot open ").toList ++ name ++ (": " : Text) ++ reason

/-- Makes a descriptor stand for a stream. -/
def point (fd stream : Nat) : Exec Unit :=
  modify fun sh => { sh with descriptors := sh.descriptors.set fd stream }

/-- Opens a file as a stream. -/
def openFile (mode : Mode) (name : Text) : Exec Nat := do
  let sh ← get
  match (ownDescriptor? name).bind sh.descriptors.get? with
  | some stream => return stream
  | none =>
    let path := Octets.path name
    if mode = .write ∧ sh.isOn "noclobber" ∧ sh.tree.isFile path then
      Exec.fail (match sh.dialect with
        | .dash => ("cannot create " : Text) ++ name ++ (": File exists" : Text)
        | .bash => name ++ (": cannot overwrite existing file" : Text)) (failure sh)
    else match sh.machine.openFile path (openingOf mode) with
      | .ok (stream, machine) => do
        set { sh with machine := machine }
        return stream
      | .error e => Exec.fail (refusal sh.dialect mode name e) (failure sh)
where
  /-- The status that a failure leaves. -/
  failure (sh : Shell) : Nat := if sh.isBash then 1 else 2

def carryOut : Plan → Exec Unit
  | .file fd mode name => do point fd (← openFile mode name)
  | .like fd target => do
    let sh ← get
    match sh.descriptors.get? target with
    | some stream => point fd stream
    | none =>
      Exec.fail (Text.ofNat target ++ (": Bad file descriptor" : Text)) (if sh.isBash then 1 else 2)
  | .close fd => modify fun sh => { sh with descriptors := sh.descriptors.close fd }
  | .content fd s => do
    let sh ← get
    let (stream, machine) := sh.machine.addPipe s
    set { sh with machine := machine }
    point fd stream
  | .both append name => do
    let stream ← openFile (if append then .append else .write) name
    point 1 stream
    point 2 stream

/-- Carries out redirections; answers with the status of a failure. -/
def apply (m : Means) (redirections : List Redirection) : Exec (Option Nat) := do
  let sh ← get
  let plans ← if sh.isBash then pure [] else redirections.mapM (plan m)
  let act : Exec (Option Nat) := do
    if sh.isBash then
      redirections.forM fun redirection => do carryOut (← plan m redirection)
    else plans.forM carryOut
    return none
  tryCatch act fun
    | .failed status => return some status
    | flow => throw flow

/-- The descriptors that a redirection changes. -/
def changed : Redirection → List Nat
  | .file fd .. | .duplicate fd _ | .document fd _ | .text fd _ => [fd]
  | .both .. => [1, 2]

/-- Runs something and then puts the descriptors back that redirections change. -/
def undoing {α : Type} (redirections : List Redirection) (body : Exec α) : Exec α :=
  Exec.afterwards body fun before after =>
    let fds := (redirections.flatMap changed) ++
      (redirections.flatMap fun
        | .duplicate 1 _ => [2]
        | _ => [])
    { after with
      descriptors := fds.foldl (fun ds fd =>
        match before.descriptors.get? fd with
        | some stream => ds.set fd stream
        | none => ds.close fd) after.descriptors }

end Redirecting

end CompileFail.Script
