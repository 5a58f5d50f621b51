import CompileFail.Script.Token
import CompileFail.Text.Line

/-! The state in which a script is read: the text that is left with the number of its line, a token
that was given back, and the texts for the input of commands that stand between their lines. -/

namespace CompileFail.Script

/-- Text for the input of a command that begins at the next line. -/
structure AwaitedDocument where
  id : Nat
  closing : Text
  /-- The line from which the text is asked for. -/
  line : Nat
  /-- Nothing in the text is expanded. -/
  literal : Bool
  /-- Tabs at the start of a line do not count. -/
  stripsTabs : Bool

structure Reader where
  dialect : Dialect
  rest : Text
  line : Nat := 1
  /-- The line on which the innermost open quote begins. -/
  opened : Nat := 1
  back : Option Token := none
  awaited : List AwaitedDocument := []
  documents : List (Nat × Word) := []
  /-- The number of the next document. -/
  fresh : Nat := 0
  aliases : List (Text × Text) := []
  /-- Aliases that are being read, each with the length of what follows it. -/
  inAliases : List (Text × Nat) := []
  /-- What is said about text that can be read after all, each with its line. -/
  warnings : List (Nat × Text) := []

abbrev Parse (α : Type) := StateT Reader (Except SyntaxError) α

/-- Characters that end a word. -/
def isMeta (c : Char) : Bool :=
  c == ' ' || c == '\t' || c == '\n' || c == ';' || c == '&' || c == '|' || c == '<' || c == '>' ||
    c == '(' || c == ')'

def isNameStart (c : Char) : Bool := c.isAlpha || c == '_'

def isNameChar (c : Char) : Bool := c.isAlphanum || c == '_'

/-- Whether a text is the name of a variable. -/
def isName (s : Text) : Bool := s.head?.any isNameStart && s.all isNameChar

/-- Parameters with names of one character that is no letter. -/
def isSpecialName (c : Char) : Bool :=
  c == '@' || c == '*' || c == '#' || c == '?' || c == '$' || c == '!' || c == '-'

namespace Reader

/-- Joins lines at the front: a backslash before a line end vanishes with it. -/
def joinLines (r : Reader) : Reader :=
  go r.line r.rest
where
  /-- Goes on at a line. -/
  go (line : Nat) : Text → Reader
    | '\\' :: '\n' :: s => go (line + 1) s
    | s => { r with line := line, rest := s }

/-- Skips blanks, joined lines and a comment. -/
def skipBlanks (r : Reader) : Reader :=
  go r.line r.rest
where
  /-- Goes on at a line. -/
  go (line : Nat) : Text → Reader
    | '\\' :: '\n' :: s => go (line + 1) s
    | ' ' :: s | '\t' :: s => go line s
    | '#' :: s => { r with line := line, rest := s.dropWhile (· != '\n') }
    | s => { r with line := line, rest := s }

/-- Leaves so much text to be read, the front of which may have held line ends. -/
def skipTo (r : Reader) (rest : Text) : Reader :=
  let skipped := r.rest.take (r.rest.length - rest.length)
  { r with line := r.line + (skipped.filter (· == '\n')).length, rest := rest }

end Reader

namespace Parse

/-- Gives up at the present line. The larger shell names the line on which an open quote begins. -/
def fail {α : Type} (offence : Offence) : Parse α := do
  let r ← get
  let line := match r.dialect, offence with
    | .bash, .unterminated c => if c = ')' then r.line else r.opened
    | .bash, .unexpected .newline _ => r.line - 1
    | _, _ => r.line
  throw ⟨line, offence⟩

/-- Reads what stands in a quote that begins here. -/
def quotation {α : Type} (body : Parse α) : Parse α := do
  let outer ← get
  set { outer with opened := outer.line }
  let result ← body
  modify ({ · with opened := outer.opened })
  return result

/-- The next character behind joined lines, which is not taken. -/
def peek : Parse (Option Char) := do
  modify Reader.joinLines
  return (← get).rest.head?

/-- Takes one character. -/
def skip : Parse Unit := modify fun r =>
  match r.rest with
  | c :: s => { r with rest := s, line := if c = '\n' then r.line + 1 else r.line }
  | [] => r

/-- Takes the character that comes next, if it is the given one. -/
def accept (c : Char) : Parse Bool := do
  if (← peek) = some c then
    skip
    return true
  else return false

/-- Takes characters as long as they are of a kind; `fuel` is at least their number. -/
def takeWhile (test : Char → Bool) : (fuel : Nat) → Parse Text
  | 0 => return []
  | fuel + 1 => do
    match ← peek with
    | none => return []
    | some c =>
      if test c then
        skip
        return c :: (← takeWhile test fuel)
      else return []

/-- Takes characters as long as they are of a kind. -/
def takeAll (test : Char → Bool) : Parse Text := do takeWhile test ((← get).rest.length + 1)

def isBash : Parse Bool := return (← get).dialect == .bash

/-- Takes the character that comes next, if it is the given one and the larger shell reads. -/
def acceptRich (c : Char) : Parse Bool := do
  if ← isBash then accept c else return false

def giveBack (token : Token) : Parse Unit := modify ({ · with back := some token })

/-- Reads something else in between, from a text that stands apart. -/
def apart {α : Type} (text : Text) (line : Nat) (body : Parse α) : Parse α := do
  let outer ← get
  set { outer with rest := text, line := line, back := none, awaited := [] }
  let result ← body
  modify fun r =>
    { r with rest := outer.rest, line := outer.line, back := outer.back, awaited := outer.awaited }
  return result

/-- Reads commands that stand inside of a word, up to the parenthesis that closes them. -/
def inside {α : Type} (body : Parse α) : Parse α := do
  let outer ← get
  set { outer with back := none, awaited := [] }
  let result ← body
  match (← get).back with
  | some .closing => do
    modify fun r => { r with back := outer.back, awaited := outer.awaited }
    return result
  | token =>
    if (← isBash) && (token.getD .endOfFile) matches .endOfFile then fail (.unterminated ')')
    else fail (.unexpected (token.getD .endOfFile) (some .closing))

end Parse

/-- Cuts the lines before a closing line off a text and answers with them and with what follows the
closing line, if there is one. Where text is expanded, a line that ends in a backslash goes on in the
next one. -/
def AwaitedDocument.cut (d : AwaitedDocument) : (continued : Bool) → List Text → Text × Option Text
  | _, [] => ([], none)
  | continued, line :: rest =>
    let stripped := if d.stripsTabs then line.dropWhile (· == '\t') else line
    if !continued && (stripped == d.closing || stripped == d.closing ++ ['\n']) then
      ([], some rest.flatten)
    else
      let slashes := ((line.reverse.drop 1).takeWhile (· == '\\')).length
      let (body, after) := d.cut (!d.literal && slashes % 2 == 1) rest
      ((if continued then line else stripped) ++ body, after)

end CompileFail.Script
