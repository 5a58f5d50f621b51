import CompileFail.Text.Blank
import CompileFail.Text.Line
import CompileFail.Text.WordChar

/-! Tags in source files. A tag marks a line that is commented out because it must not compile,
and says which error the compiler has to report once the comment is opened. This module says what
a tag token is, which lines with a token are well formed, and what such a line becomes when it is
activated. Everything here looks at one line at a time. -/

namespace CompileFail.Tag

/-- The name of tags in messages. -/
def display : Text := "[CompilationError-*]"

/-- The part that all tag tokens start with. -/
def opening : Text := "[CompilationError"

/-- Reads a tag token: the configuration that it names, if any, and the text behind it. The name
of a configuration consists of word characters and may be missing behind its dash. -/
def token? (s : Text) : Option (Option Text × Text) :=
  if opening.isPrefixOf s then
    match s.drop opening.length with
    | ']' :: rest => some (none, rest)
    | '-' :: rest =>
      match rest.dropWhile isWordChar with
      | ']' :: rest' => some (some (rest.takeWhile isWordChar), rest')
      | _ => none
    | _ => none
  else none

/-- The number of positions at which a token starts. -/
def count : Text → Nat
  | [] => 0
  | c :: s => if (token? (c :: s)).isSome then count s + 1 else count s

def isTagged (line : Text) : Bool := count line != 0

/-- The places of the tagged lines, in order. -/
def taggedIndices (lines : List Text) : List Nat :=
  lines.zipIdx.filterMap fun (line, index) => if isTagged line then some index else none

/-- A line around its first token. -/
structure Around where
  before : Text
  configuration : Option Text
  after : Text
deriving DecidableEq, Repr

def around? : Text → Option Around
  | [] => none
  | c :: s =>
    match token? (c :: s) with
    | some (configuration, after) => some ⟨[], configuration, after⟩
    | none => (around? s).map fun a => { a with before := c :: a.before }

/-- What stands before a token when it opens with a comment: the indentation, the character behind
the `//`, which is no third slash, and the rest. -/
def commentedOut? (before : Text) : Option (Text × Char × Text) :=
  match before.dropWhile isBlank with
  | '/' :: '/' :: first :: rest =>
    if first = '/' then none else some (before.takeWhile isBlank, first, rest)
  | _ => none

/-- Whether a text ends in the `//` of a trailing comment and blanks, with something other than a
slash before the comment and all before that on one line. -/
def endsInComment (rest : Text) : Bool :=
  match rest.reverse.dropWhile isBlank with
  | '/' :: '/' :: last :: middle => last != '/' && '\n' ∉ middle
  | _ => false

/-- The expected message behind a token: what follows the colon, which is one line of text. -/
def expected? (after : Text) : Option Text :=
  match after with
  | ':' :: tail =>
    let message := Text.trim tail
    if message.isEmpty || '\n' ∈ message then none else some message
  | _ => none

/-- A well-formed tag. -/
structure Occurrence where
  /-- The only configuration in which the tag holds; without one it holds in all. -/
  configuration : Option Text
  /-- A part of the message that the compiler has to report. -/
  expected : Text
  /-- The line with the comment opened. -/
  activated : Text
deriving DecidableEq, Repr

def Occurrence.appliesTo (occurrence : Occurrence) (configuration : Text) : Bool :=
  match occurrence.configuration with
  | none => true
  | some c => c == configuration

inductive Malformed where
  | duplicateTag
  | incorrectFormat
  | emptyConfiguration
deriving DecidableEq, Repr

def Malformed.message : Malformed → Text
  | duplicateTag => ['\''] ++ display ++ ("' occurs more than once on the line." : Text)
  | incorrectFormat =>
    ['\''] ++ display ++ ("' is in the line, but the line's format is incorrect." : Text)
  | emptyConfiguration =>
    ("The solution configuration in '" : Text) ++ display ++ ("' is empty." : Text)

inductive Scan where
  | untagged
  | malformed (reason : Malformed)
  | occurrence (occurrence : Occurrence)
deriving DecidableEq, Repr

/-- The character behind the comment opener as it stays in the activated line: a single blank
belongs to the comment, anything else to the code. -/
def keptFirst (first : Char) : Text := if first = ' ' then [] else [first]

/-- Reads a body with exactly one token. The activated form is the body without its comment
opener. -/
def scanBody (body terminator : Text) : Scan :=
  match around? body with
  | none => .malformed .incorrectFormat
  | some a =>
    match commentedOut? a.before, expected? a.after with
    | some (indentation, first, rest), some expected =>
      if !endsInComment rest then .malformed .incorrectFormat
      else if a.configuration = some [] then .malformed .emptyConfiguration
      else .occurrence
        { configuration := a.configuration
          expected := expected
          activated := indentation ++ keptFirst first ++
            (body.drop (indentation.length + 3)) ++ terminator }
    | _, _ => .malformed .incorrectFormat

/-- Reads one line. -/
def scan (line : Text) : Scan :=
  match count line with
  | 0 => .untagged
  | 1 =>
    let (body, terminator) := Text.splitTerminator line
    scanBody body terminator
  | _ => .malformed .duplicateTag

/-- The text of a file in which one line is replaced by its activated form. -/
def activate (lines : List Text) (index : Nat) (occurrence : Occurrence) : Text :=
  (lines.set index occurrence.activated).flatten

end CompileFail.Tag
