import CompileFail.Script.Builtin.Basic
import CompileFail.Script.Condition
import CompileFail.Script.Field
import CompileFail.Script.Format

/-! Builtins that print, that test conditions and that read input. -/

namespace CompileFail.Script.Builtin

def echo : Builtin := fun args => do
  Exec.print (if (← get).isBash then optionEcho .richEcho args else plainEcho args)
  return 0

/-- Prints or, in the larger shell, keeps what would be printed in a variable. -/
def printf : Builtin := fun args => do
  let sh ← get
  let (target, args) := match args, sh.dialect with
    | ['-', 'v'] :: name :: rest, .bash => (some name, rest)
    | _, _ => (none, args)
  match if args.head? = some ['-', '-'] then args.drop 1 else args with
  | [] =>
    if sh.isBash then do
      Exec.report "printf: usage: printf [-v var] format [arguments]"
      return 2
    else Exec.fail "usage: printf format [arg ...]"
  | format :: args => do
    let r := Format.render (if sh.isBash then .rich else .plain) format args
    r.complaints.forM Exec.complain
    match target with
    | some name => Exec.assign name r.out
    | none => Exec.print r.out
    let isError (message : Text) : Bool := !("warning" : Text).isPrefixOf message
    if r.failed && !sh.isBash then return 2
    else return if r.failed || r.complaints.any isError then 1 else 0

def condition (words : List Text) : Exec Nat := do
  let sh ← get
  let isSet (name : Text) : Bool := (sh.value? name).isSome || !(sh.elements name).isEmpty
  match Condition.holds ⟨sh.dialect, sh.tree, isSet⟩ words with
  | .ok true => return 0
  | .ok false => return 1
  | .error message => do
    Exec.complain message
    return 2

def bracket : Builtin := fun args => do
  if args.getLast? ≠ some [']'] then
    Exec.complain (if (← get).isBash then "missing `]'" else "missing ]")
    return 2
  else condition args.dropLast

/-- How input is read. -/
structure Reading where
  raw : Bool
  /-- What ends the line. -/
  delimiter : Char := '\n'
  /-- As many characters at most. -/
  limit : Option Nat := none
  /-- The delimiter counts only if there is no limit. -/
  exact : Bool := false

/-- The next line of the input, whether it is complete, and the input behind it. A backslash quotes
the next character or joins two lines, unless the line is read as it is. -/
def line (r : Reading) : (fuel : Nat) → (count : Nat) → Octets → List Glyph × Bool × Octets
  | 0, _, s => ([], false, s)
  | fuel + 1, count, s =>
    if r.limit.any (count ≥ ·) then ([], true, s)
    else match s with
      | [] => ([], false, [])
      | '\\' :: c :: s =>
        if r.raw then add '\\' false fuel count (c :: s)
        else if c = '\n' then line r fuel count s
        else add c true fuel count s
      | c :: s =>
        if c = r.delimiter ∧ !r.exact then ([], true, s)
        else if c = '\x00' ∨ c = '\\' ∧ !r.raw then line r fuel count s
        else add c false fuel count s
where
  /-- One more character. -/
  add (c : Char) (quoted : Bool) (fuel count : Nat) (s : Octets) : List Glyph × Bool × Octets :=
    match fuel with
    | 0 => ([], false, s)
    | fuel + 1 =>
      let (rest, complete, s) := line r fuel (count + 1) s
      (⟨c, quoted⟩ :: rest, complete, s)

/-- Reads a line of the input into variables; fails if the input ends before the line does. -/
def read : Builtin := fun args => do
  let sh ← get
  let (options, names) ← options (if sh.isBash then "a:d:n:N:p:t:u:rse" else "p:r") args
  let valueOf (c : Char) : Option Text := (options.find? (·.1 == c)).map (·.2)
  let has (c : Char) : Bool := (valueOf c).isSome
  let fd := ((valueOf 'u').bind Text.toNat?).getD 0
  let names := if names.isEmpty && sh.isBash && !has 'a' then [("REPLY" : Text)] else names
  if names.isEmpty && !has 'a' then Exec.fail "arg count"
  else match names.find? (!isName ·) with
    | some name =>
      if sh.isBash then
        Exec.fail ('`' :: name ++ ("': not a valid identifier" : Text)) 1
      else Exec.fail (name ++ (": bad variable name" : Text))
    | none => do
      let input ← Exec.unread fd
      let r : Reading :=
        { raw := has 'r'
          delimiter := match valueOf 'd' with
            | some (c :: _) => c
            | some [] => '\x00'
            | none => '\n'
          limit := ((valueOf 'n').or (valueOf 'N')).bind Text.toNat?
          exact := has 'N' }
      let (glyphs, complete, rest) := line r (3 * input.length + 2) 0 input
      Exec.leaveUnread fd rest
      let whole := glyphs.map (·.char)
      match valueOf 'a' with
      | some name => do
        let marks := glyphs.map fun g => Mark.char g.char g.quoted true
        Exec.assignList name ((Mark.fields sh.separators marks).map fun p => p.map (·.char))
      | none => do
        let values :=
          if has 'N' || args.isEmpty then whole :: List.replicate (names.length - 1) []
          else if sh.isBash && names == [("REPLY" : Text)] && !args.contains ("REPLY" : Text) then
            [whole]
          else Mark.lineFields sh.separators names.length glyphs
        (names.zip values).forM fun (name, value) => Exec.assign name value
      return if complete then 0 else 1

/-- Reads the lines of the input into an array. -/
def mapfile : Builtin := fun args => do
  let (options, names) ← options "d:n:O:s:tu:C:c:" args
  let name := names.headD "MAPFILE"
  let valueOf (c : Char) : Option Text := (options.find? (·.1 == c)).map (·.2)
  let fd := ((valueOf 'u').bind Text.toNat?).getD 0
  let delimiter := ((valueOf 'd').bind List.head?).getD '\n'
  let input ← Exec.unread fd
  Exec.leaveUnread fd []
  let pieces := Text.splitOn delimiter input
  let lines := if pieces.getLast? = some [] then pieces.dropLast else pieces
  let ended := input.getLast? == some delimiter
  let keep := (valueOf 't').isNone
  let lines := lines.zipIdx.map fun (line, i) =>
    if keep && (ended || i + 1 < lines.length) then line ++ [delimiter] else line
  let lines := lines.drop (((valueOf 's').bind Text.toNat?).getD 0)
  let lines := match (valueOf 'n').bind Text.toNat? with
    | some (n + 1) => lines.take (n + 1)
    | _ => lines
  Exec.assignList name lines
  return 0

end CompileFail.Script.Builtin
