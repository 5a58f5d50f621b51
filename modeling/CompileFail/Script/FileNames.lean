import CompileFail.FileTree.Access
import CompileFail.Script.Pattern

/-! Words of a command that are patterns stand for the files whose names fit them, in order; one
that no name fits stands for itself. -/

namespace CompileFail.Script.Pattern

/-- Whether a word has to be read as a pattern. -/
def isLive (style : PatternStyle) (p : Pattern) : Bool :=
  (p.any fun g => isActive g '*' || isActive g '?' ||
    isActive g '[' && p.any fun close => isActive close ']') ||
    style.groups && p.any fun g => isActive g '('

def text (p : Pattern) : Text := p.map (·.char)

/-- The patterns between separators. -/
def parts : Pattern → List Pattern
  | [] => [[]]
  | g :: p =>
    if g.char = '/' then [] :: parts p
    else match parts p with
      | [] => [[g]]
      | part :: rest => (g :: part) :: rest

/-- Where names are looked for. -/
structure Search where
  tree : FileTree
  style : PatternStyle
  /-- Names that start with a dot count like others. -/
  dotted : Bool := false
  /-- A directory counts among its own names, and so does the one above. -/
  selves : Bool := true

/-- The names in a directory that fit a pattern. One that starts with a dot is hidden, unless the
pattern starts with one too; then the directory itself and the one above count as well. -/
def namesIn (s : Search) (dir : Text) (part : Pattern) : List Text :=
  let isDotted (name : Text) : Bool := name.head? == some '.'
  let wantsDot := part.head?.any fun g => g.char == '.'
  match s.tree.list (Octets.path (if dir.isEmpty then ['.'] else dir)) with
  | .error _ => []
  | .ok members =>
    let names := members.map (·.1)
    let names := if wantsDot && s.selves then ['.'] :: ['.', '.'] :: names else names
    names.filter fun name =>
      fits s.style part name && (!isDotted name || wantsDot || s.dotted)

/-- The files that parts of a pattern lead to from a directory, as paths that start with `dir`. -/
def pathsFrom (s : Search) (dir : Text) : List Pattern → List Text
  | [] => []
  | [part] =>
    if isLive s.style part then (namesIn s dir part).map (dir ++ ·)
    else
      let path := dir ++ part.text
      if (s.tree.find (Octets.path path) false).toOption.isSome then [path] else []
  | part :: rest =>
    let names := if isLive s.style part then namesIn s dir part else [part.text]
    names.flatMap fun name => pathsFrom s (dir ++ name ++ ['/']) rest

/-- The words that a pattern stands for; none if there are none. -/
def fileNames (s : Search) (p : Pattern) : Option (List Text) :=
  if p.any (fun g => g.char == '*' || g.char == '?' || g.char == '[' || g.char == '(') &&
      isLive s.style p then
    match pathsFrom s [] p.parts with
    | [] => none
    | paths => some (paths.mergeSort fun a b => !decide (b < a))
  else some [p.text]

end CompileFail.Script.Pattern
