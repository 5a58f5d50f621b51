import CompileFail.Text.Octets

/-! The commands of shell scripts. Scripts, their words and all values are sequences of bytes. -/

namespace CompileFail.Script

/-- The two shells whose scripts are understood: the plain one, and one that knows arrays, tests in
double brackets and more ways to use a variable. -/
inductive Dialect where
  | dash
  | bash
deriving DecidableEq, Repr

/-- Which part of a value a pattern removes. -/
inductive Trim where
  | shortestPrefix
  | longestPrefix
  | shortestSuffix
  | longestSuffix
deriving DecidableEq, Repr

/-- What is done if a variable has no value, or with a colon also if its value is empty. -/
inductive Fallback where
  | useWord
  | assignWord
  | complain
  /-- The word is used if there is a value. -/
  | replace
deriving DecidableEq, Repr

/-- Which finds of a pattern are replaced. -/
inductive Replacing where
  | first
  | every
  | atStart
  | atEnd
deriving DecidableEq, Repr

/-- How a file is used by a redirection. -/
inductive Mode where
  | read
  | write
  /-- Written to even if the shell keeps files from being overwritten. -/
  | overwrite
  | append
  | readWrite
deriving DecidableEq, Repr

/-- What follows a case: the end of the choice, the next body, or a look at the next patterns. -/
inductive CaseEnd where
  | stop
  | fallThrough
  | lookOn
deriving DecidableEq, Repr

mutual

/-- A piece of a word. What is quoted is neither split nor read as a pattern. -/
inductive Piece where
  | chars (text : Text) (quoted : Bool)
  /-- The value of a variable, or of an element of it if there is an index. -/
  | variable (name : Text) (index : Option (List Piece)) (use : Use) (quoted : Bool)
  | substitution (body : Command) (quoted : Bool)
  | arithmetic (expression : List Piece) (quoted : Bool)
  /-- The elements of an array. -/
  | elements (words : List (List Piece))
  /-- The name of a stream that a command reads from or writes to. -/
  | process (body : Command) (reads : Bool)

/-- How the value of a variable is used. -/
inductive Use where
  | plain
  | length
  | trim (kind : Trim) (pattern : List Piece)
  | fallback (kind : Fallback) (colon : Bool) (word : List Piece)
  | slice (start : List Piece) (size : Option (List Piece))
  | exchange (kind : Replacing) (pattern replacement : List Piece)
  /-- The letters that fit a pattern are made capital or small, all of them or the first. -/
  | recase (upper every : Bool) (pattern : List Piece)
  /-- The value names the variable that is meant. -/
  | indirect (use : Use)
  /-- The indices of an array, or the names of variables that start like this. -/
  | keys
  /-- The value in a form that gives it back when it is read. -/
  | transform (operator : Char)
  /-- There is no such use. -/
  | invalid (text : Text)

inductive Redirection where
  | file (fd : Nat) (mode : Mode) (word : List Piece)
  | duplicate (fd : Nat) (word : List Piece)
  /-- The input is text that stands in the script itself, under a number. -/
  | document (fd : Nat) (id : Nat)
  | text (fd : Nat) (word : List Piece)
  /-- Output and errors both go to a file. -/
  | both (append : Bool) (word : List Piece)

/-- Gives a variable a value, or one of its elements if there is an index. -/
inductive Assignment where
  | mk (name : Text) (index : Option (List Piece)) (append : Bool) (value : List Piece)

/-- A test in double brackets. -/
inductive Test where
  | word (word : List Piece)
  | unary (operator : Text) (word : List Piece)
  | binary (left : List Piece) (operator : Text) (right : List Piece)
  | negation (test : Test)
  | both (first second : Test)
  | either (first second : Test)

/-- A command; what can fail in a way that is reported knows its line. -/
inductive Command where
  | simple (line : Nat) (assignments : List Assignment) (words : List (List Piece))
      (redirections : List Redirection)
  | sequence (commands : List Command)
  | pipeline (stages : List Command)
  | background (command : Command)
  | negation (command : Command)
  | both (first second : Command)
  | either (first second : Command)
  | branch (condition body otherwise : Command)
  /-- The body is repeated as long as the condition succeeds, or fails if `sense` is off. -/
  | repetition (sense : Bool) (condition body : Command)
  | each (line : Nat) (name : Text) (words : Option (List (List Piece))) (body : Command)
  | counting (line : Nat) (start condition step : List Piece) (body : Command)
  | choice (line : Nat) (subject : List Piece)
      (cases : List (List (List Piece) × Command × CaseEnd))
  | subshell (line : Nat) (body : Command)
  | definition (name : Text) (body : Command)
  | redirected (line : Nat) (body : Command) (redirections : List Redirection)
  | test (line : Nat) (test : Test)
  | evaluation (line : Nat) (expression : List Piece)

end

abbrev Word := List Piece

instance : Inhabited Piece := ⟨.chars [] false⟩

instance : Inhabited Command := ⟨.sequence []⟩

namespace Piece

def isQuoted : Piece → Bool
  | .chars _ quoted => quoted
  | .variable _ _ _ quoted => quoted
  | .substitution _ quoted => quoted
  | .arithmetic _ quoted => quoted
  | _ => false

end Piece

namespace Word

/-- Whether any of the word is quoted. -/
def isQuoted (w : Word) : Bool := w.any Piece.isQuoted

/-- Puts a character in front of a word. -/
def cons (c : Char) (quoted : Bool) : Word → Word
  | .chars text q :: rest =>
    if q = quoted then .chars (c :: text) q :: rest else .chars [c] quoted :: .chars text q :: rest
  | rest => .chars [c] quoted :: rest

/-- The text of a word without expansions. -/
def text? : Word → Option Text
  | [] => some []
  | .chars text _ :: rest => (text? rest).map (text ++ ·)
  | _ => none

/-- The text of a word without expansions and quotes. -/
def bare? (w : Word) : Option Text := if w.isQuoted then none else text? w

end Word

end CompileFail.Script
