import CompileFail.Toml.Quoted

/-! TOML documents: keys, values in brackets and braces, and the lines of a document. Reading
yields the root table, or nothing if the document breaks a rule. -/

namespace CompileFail.Toml

/-- How deep values may be nested, and how many parts a key may have. -/
def depthLimit : Nat := 80

def skipSpaces (s : Text) : Text := s.dropWhile isSpace

def isBareKeyChar (c : Char) : Bool := c.isAlphanum || c == '_' || c == '-'

def readSimpleKey? (s : Text) : Option (Text × Text) :=
  match s with
  | c :: _ =>
    if c == '"' || c == '\'' then readQuoted? false s
    else
      let key := s.takeWhile isBareKeyChar
      if key.isEmpty then none else some (key, s.dropWhile isBareKeyChar)
  | [] => none

/-- The parts of a dotted key, with blanks around each. -/
def readKeyParts? : (fuel : Nat) → Text → Option (List Text × Text)
  | 0, _ => none
  | fuel + 1, s => do
    let (key, s) ← readSimpleKey? (skipSpaces s)
    match skipSpaces s with
    | '.' :: s =>
      let (keys, s) ← readKeyParts? fuel s
      some (key :: keys, s)
    | s => some ([key], s)

def readKey? (s : Text) : Option (List Text × Text) := do
  let (keys, s) ← readKeyParts? (s.length + 1) s
  if keys.length < depthLimit then some (keys, s) else none

/-- What follows a comment, of which only the characters are looked at; its line end stays. -/
def skipComment? (s : Text) : Option Text :=
  match s with
  | '#' :: _ =>
    let rest := s.dropWhile isPlain
    if rest.isEmpty || (newline? rest).isSome then some rest else none
  | _ => some s

/-- Skips blanks, comments and line ends between the elements of an array. -/
def skipLines? : (fuel : Nat) → Text → Option Text
  | 0, s => some s
  | fuel + 1, s => do
    let s ← skipComment? (skipSpaces s)
    match newline? s with
    | some s => skipLines? fuel s
    | none => some s

mutual

/-- A value at the start of a text, inside `depth` brackets and braces. -/
def readValue? : (fuel : Nat) → (depth : Nat) → Text → Option (Value × Text)
  | 0, _, _ => none
  | fuel + 1, depth, s =>
    match s with
    | '[' :: s => if depthLimit ≤ depth + 1 then none else readItems? fuel (depth + 1) [] s
    | '\x7b' :: s =>
      if depthLimit ≤ depth + 1 then none else readMembers? fuel (depth + 1) [] s
    | _ =>
      match readQuoted? true s with
      | some (text, s) => some (.string text, s)
      | none => readScalar? s

/-- The elements of an array up to its bracket, behind those already read. -/
def readItems? : (fuel : Nat) → (depth : Nat) → List Value → Text → Option (Value × Text)
  | 0, _, _, _ => none
  | fuel + 1, depth, items, s => do
    match ← skipLines? s.length s with
    | ']' :: s => some (.array items, s)
    | s =>
      let (item, s) ← readValue? fuel depth s
      match ← skipLines? s.length s with
      | ',' :: s => readItems? fuel depth (items ++ [item]) s
      | ']' :: s => some (.array (items ++ [item]), s)
      | _ => none

/-- The members of a table in braces, behind those already read. -/
def readMembers? : (fuel : Nat) → (depth : Nat) → Members → Text → Option (Value × Text)
  | 0, _, _, _ => none
  | fuel + 1, depth, members, s =>
    match skipSpaces s with
    | '\x7d' :: s => if members.isEmpty then some (.table .inline [], s) else none
    | s => do
      let (keys, s) ← readKey? s
      match s with
      | '=' :: s =>
        let (value, s) ← readValue? fuel depth (skipSpaces s)
        let members ← Members.define? keys value .inline members
        match skipSpaces s with
        | ',' :: s => readMembers? fuel depth members s
        | '\x7d' :: s => some (.table .inline members, s)
        | _ => none
      | _ => none

end

/-- How far a document has been read: the root table and the header whose table is open. -/
structure Reader where
  root : Members := []
  header : List Text := []

/-- Reads a header of which `brackets` brackets have been read, up to the end of its line. -/
def readHeader? (brackets : Nat) (s : Text) : Option (List Text × Text) := do
  let (keys, s) ← readKey? s
  if (List.replicate brackets ']').isPrefixOf s then some (keys, s.drop brackets) else none

/-- Reads what one line starts, apart from what may follow a value or a header on its line. -/
def readStatement? (r : Reader) (s : Text) : Option (Reader × Text) :=
  match s with
  | '[' :: '[' :: s => do
    let (keys, s) ← readHeader? 2 s
    some (⟨← Members.openRow? keys r.root, keys⟩, s)
  | '[' :: s => do
    let (keys, s) ← readHeader? 1 s
    some (⟨← Members.openTable? keys r.root, keys⟩, s)
  | s => do
    let (keys, s) ← readKey? s
    let (value, s) ← readValue? (2 * s.length + 2) 0 (skipSpaces (← mark? '=' s))
    some ({ r with root := ← Members.defineIn? r.header keys value r.root }, s)

/-- Reads the lines of a document. -/
def readLines? : (fuel : Nat) → Reader → Text → Option Members
  | 0, _, _ => none
  | fuel + 1, r, s => do
    let s := skipSpaces s
    let (r, s) ← if s.isEmpty || s.head? = some '#' || (newline? s).isSome then some (r, s)
      else readStatement? r s
    let s ← skipComment? (skipSpaces s)
    if s.isEmpty then some r.root
    else readLines? fuel r (← newline? s)

def byteOrderMark : Char := '\uFEFF'

/-- The root table of a document. A byte order mark may stand in front. -/
def parse? (s : Text) : Option Members :=
  let s := if s.head? = some byteOrderMark then s.drop 1 else s
  readLines? (s.length + 1) {} s

end CompileFail.Toml
