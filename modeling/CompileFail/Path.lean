import CompileFail.Text.Octets

/-! Paths as they were written, byte by byte: a name need not be the UTF-8 form of a text, and is shown
with replacement characters where it is none. A path is compared and taken apart by its components, in
which repeated separators, a final separator and every dot but a leading one do not count; what is cut
out of a path keeps its spelling. -/

namespace CompileFail

structure Path where
  text : Octets
deriving DecidableEq, Repr, Inhabited

namespace Path

instance : Coe String Path := ⟨fun s => ⟨s⟩⟩

/-- The path that a text spells. -/
def ofText (s : Text) : Path := ⟨Octets.ofText s⟩

/-- The path as it is shown. -/
def display (p : Path) : Text := Octets.toText p.text

inductive Component where
  | root
  | here
  | up
  | name (name : Octets)
deriving DecidableEq, Repr

/-- Where a path starts: at the root, at an explicit `.`, or anywhere. -/
inductive Lead where
  | root
  | here
  | none
deriving DecidableEq, Repr

/-- Pieces between separators that are no components. -/
def isFiller (piece : Octets) : Bool := piece == [] || piece == ['.']

def Component.ofPiece (piece : Octets) : Component :=
  if piece = ['.', '.'] then .up else .name piece

/-- The start of a path and the pieces behind it. -/
def parts (p : Path) : Lead × List Octets :=
  match Text.splitOn '/' p.text with
  | [] => (.none, [])
  | [piece] => if piece = ['.'] then (.here, []) else (.none, [piece])
  | piece :: rest =>
    if piece = [] then (.root, rest)
    else if piece = ['.'] then (.here, rest)
    else (.none, piece :: rest)

/-- The path with a given start and given pieces behind it. -/
def ofParts (lead : Lead) (pieces : List Octets) : Path :=
  let body := ['/'].intercalate pieces
  match lead with
  | .root => ⟨'/' :: body⟩
  | .here => ⟨if pieces.isEmpty then ['.'] else '.' :: '/' :: body⟩
  | .none => ⟨body⟩

def Lead.components : Lead → List Component
  | .root => [.root]
  | .here => [.here]
  | .none => []

def components (p : Path) : List Component :=
  p.parts.1.components ++ (p.parts.2.filter (!isFiller ·)).map Component.ofPiece

/-- The pieces up to the last component. -/
def dropEndFillers (pieces : List Octets) : List Octets :=
  (pieces.reverse.dropWhile isFiller).reverse

/-- The path without its last component; `none` for the root and for the empty path. -/
def parent (p : Path) : Option Path :=
  match p.parts with
  | (lead, pieces) =>
    match dropEndFillers pieces with
    | [] => if lead = .here then some ⟨[]⟩ else none
    | piece :: rest => some (ofParts lead (dropEndFillers (piece :: rest).dropLast))

/-- The path, its parent, the parent of that and so on; a path has less parents than bytes. -/
def ancestors (p : Path) : List Path :=
  go (p.text.length + 1) p
where
  /-- The first `limit` members of the chain. -/
  go : Nat → Path → List Path
    | 0, _ => []
    | limit + 1, p => p :: (match p.parent with | none => [] | some q => go limit q)

/-- The last component if it is a name. -/
def fileName (p : Path) : Option Octets :=
  match p.components.getLast? with
  | some (.name name) => some name
  | _ => none

/-- The file name as it is shown, if there is one. -/
def shownName (p : Path) : Text := Octets.toText (p.fileName.getD [])

/-- A file name split at its last dot; a dot in front does not start an extension. -/
def splitExtension (name : Octets) : Octets × Option Octets :=
  match Text.splitOnce? '.' name.reverse with
  | some (ext, stem) => if stem.isEmpty then (name, none) else (stem.reverse, some ext.reverse)
  | none => (name, none)

def stem (p : Path) : Option Octets := p.fileName.map fun name => (splitExtension name).1

def extension (p : Path) : Option Octets := p.fileName.bind fun name => (splitExtension name).2

/-- Whether the path has the extension `ext`, the case of ASCII letters aside. -/
def hasExtension (p : Path) (ext : Octets) : Bool :=
  p.extension.any fun e => Text.eqIgnoreCase e ext

def isAbsolute (p : Path) : Bool := p.text.head? == some '/'

/-- The path `name` as seen from directory `p`. -/
def join (p : Path) (name : Octets) : Path :=
  if name.head? = some '/' then ⟨name⟩
  else if p.text.isEmpty || p.text.getLast? == some '/' then ⟨p.text ++ name⟩
  else ⟨p.text ++ '/' :: name⟩

/-- The path with its file name, if it has one, replaced. -/
def withFileName (p : Path) (name : Octets) : Path :=
  match p.fileName with
  | some _ => (p.parent.getD ⟨[]⟩).join name
  | none => p.join name

/-- Equality of the components. -/
def same (p q : Path) : Bool := p.components == q.components

/-- Whether `base` is the path itself or one of the directories it leads through. -/
def startsWith (p base : Path) : Bool := base.components.isPrefixOf p.components

/-- What is left of the pieces behind their first `count` components. -/
def dropComponents : Nat → List Octets → List Octets
  | 0, pieces => pieces.dropWhile isFiller
  | count + 1, pieces => dropComponents count ((pieces.dropWhile isFiller).drop 1)

/-- The part of the path behind `base`. -/
def stripPrefix? (p base : Path) : Option Path :=
  if !p.startsWith base then none
  else match p.parts, base.components.length with
    | (lead, pieces), 0 => some (ofParts lead (dropEndFillers pieces))
    | (lead, pieces), count =>
      some (ofParts .none (dropComponents (count - lead.components.length) (dropEndFillers pieces)))

def Component.text : Component → Octets
  | .root => ['/']
  | .here => ['.']
  | .up => ['.', '.']
  | .name n => n

/-- The path seen from the root when `dir` is the working directory. Nothing is resolved: each
`..` stays, and so does a final separator. -/
def absolute (dir p : Path) : Path :=
  let start := if p.isAbsolute then
      if p.text.take 2 = ['/', '/'] ∧ p.text[2]? ≠ some '/' then ⟨['/', '/']⟩ else ⟨['/']⟩
    else dir
  let steps := p.components.filter fun c => c != .root && c != .here
  let body := steps.foldl (fun q step => q.join step.text) start
  if p.text.getLast? = some '/' then body.join [] else body

end Path

/-- The path that some bytes are. -/
def Octets.path (s : Octets) : Path := ⟨s⟩

end CompileFail
