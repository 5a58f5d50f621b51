import CompileFail.Text.Blank
import CompileFail.Text.Digit
import CompileFail.Text.Line

/-! Diagnostics in the output of a compiler. A diagnostic is one line: a file with a position in
parentheses, the kind, a code and the message. The verdict on a check rests on the first of them
alone. -/

namespace CompileFail

namespace Diagnostic

inductive Kind where
  | error
  | fatalError
  | warning
  | note
  /-- Any other kind, in the words of the compiler. -/
  | other (words : Text)
deriving DecidableEq, Repr

namespace Kind

def ofText (words : Text) : Kind :=
  if words = ("error" : Text) then error
  else if words = ("fatal error" : Text) then fatalError
  else if words = ("warning" : Text) then warning
  else if words = ("note" : Text) ∨ words = ("message" : Text) then note
  else other words

def text : Kind → Text
  | error => "error"
  | fatalError => "fatal error"
  | warning => "warning"
  | note => "note"
  | other words => words

end Kind

end Diagnostic

structure Diagnostic where
  kind : Diagnostic.Kind
  code : Text
  message : Text
deriving DecidableEq, Repr

namespace Diagnostic

def isPositionChar (c : Char) : Bool := c.isDigit || c == ','

/-- Whether a text ends in a position in parentheses. -/
def endsInPosition (s : Text) : Bool :=
  match s.reverse with
  | ')' :: back =>
    !(back.takeWhile isPositionChar).isEmpty && (back.dropWhile isPositionChar).head? == some '('
  | _ => false

/-- Takes the file and the position off the front of a line. The colon that ends them is the first
one behind the first two characters, among which a drive letter may have one of its own. -/
def afterPlace? (line : Text) : Option Text :=
  match line with
  | a :: b :: rest =>
    if a == '\n' || b == '\n' then none
    else match Text.splitOnce? ':' rest with
      | some (place, ' ' :: rest') => if endsInPosition place then some rest' else none
      | _ => none
  | _ => none

def isKindChar (c : Char) : Bool := c.isLower || c == ' '

/-- Takes the kind and the blank behind it off the front of a text. -/
def kind? (s : Text) : Option (Text × Text) :=
  match (s.takeWhile isKindChar).reverse with
  | ' ' :: words =>
    if words.isEmpty then none else some (words.reverse, s.dropWhile isKindChar)
  | _ => none

/-- Takes the code, capital letters and then digits, and the colon behind it off the front. -/
def code? (s : Text) : Option (Text × Text) :=
  let letters := s.takeWhile Char.isUpper
  let rest := s.dropWhile Char.isUpper
  let digits := rest.takeWhile isDecimalDigit
  match rest.dropWhile isDecimalDigit with
  | ':' :: ' ' :: message =>
    if letters.isEmpty || digits.isEmpty then none else some (letters ++ digits, message)
  | _ => none

/-- Reads one line; blanks at its end do not count. -/
def ofLine? (line : Text) : Option Diagnostic := do
  let rest ← afterPlace? (Text.trimEnd line)
  let (kind, rest) ← kind? rest
  let (code, message) ← code? rest
  if '\n' ∈ message then none
  else some ⟨Kind.ofText kind, code, message⟩

/-- The line of the output on which the first diagnostic is expected. Lines of blanks do not
count, and neither does a first line that repeats the name of the source file. -/
def firstLine? (output sourceName : Text) : Option Text :=
  match (Text.lines output).filter (!Text.isBlankText ·) with
  | [] => none
  | first :: rest =>
    if Text.eqIgnoreCase (Text.trim first) sourceName then rest.head? else some first

end Diagnostic

end CompileFail
