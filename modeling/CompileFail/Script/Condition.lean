import CompileFail.FileTree.Access
import CompileFail.Script.Arithmetic

/-! The conditions that the command `test` of shell scripts evaluates: on texts, on numbers and on
files. -/

namespace CompileFail.Script.Condition

/-- The entry that a path leads to. -/
def entryAt? (tree : FileTree) (s : Text) (followLast : Bool) : Option Entry :=
  (tree.find (Octets.path s) followLast).toOption.map (·.2)

/-- A number of an operand; blanks may stand around it. -/
def number? (s : Text) : Option Int :=
  let s := s.dropWhile Arithmetic.isBlank
  let (negative, body) := match s with
    | '-' :: s => (true, s)
    | '+' :: s => (false, s)
    | s => (false, s)
  let (n, rest) := Text.leadingDigits 10 body.length body
  if rest.length = body.length ∨ !rest.all Arithmetic.isBlank ∨ n > Arithmetic.largest then none
  else some (if negative then 0 - n else n)

/-- What a word may be taken for. -/
inductive Kind where
  | unary
  | binary
  | not
  | conjunction
  | disjunction
  | opening
  | closing
deriving DecidableEq

/-- The conditions on one operand, as letters behind a dash. -/
def unaryLetters : Text := "rwxefdcbpugkstznhOGLS"

def binaryWords : Dialect → List Text
  | .dash => ["=", "!=", "<", ">", "-eq", "-ne", "-ge", "-gt", "-le", "-lt", "-nt", "-ot", "-ef"]
  | .bash =>
    ["=", "==", "!=", "<", ">", "-eq", "-ne", "-ge", "-gt", "-le", "-lt", "-nt", "-ot", "-ef"]

def kindOf? (dialect : Dialect) (s : Text) : Option Kind :=
  match s with
  | ['!'] => some .not
  | ['('] => some .opening
  | [')'] => some .closing
  | ['-', 'a'] => some .conjunction
  | ['-', 'o'] => some .disjunction
  | ['-', c] =>
    if unaryLetters.any (· == c) || dialect == .bash && (c == 'v' || c == 'N') then some .unary
    else none
  | _ => if (binaryWords dialect).contains s then some .binary else none

/-- What a condition is evaluated with. -/
structure Context where
  dialect : Dialect
  tree : FileTree
  /-- The variables that have values. -/
  isSet : Text → Bool

/-- What is said about an operand that should be a number. -/
def notANumber (dialect : Dialect) (s : Text) : Text :=
  match dialect with
  | .dash => ("Illegal number: " : Text) ++ s
  | .bash => s ++ (": integer expression expected" : Text)

def number (c : Context) (s : Text) : Except Text Int :=
  match number? s with
  | some n => .ok n
  | none => .error (notANumber c.dialect s)

/-- A condition on one operand. -/
def unary (c : Context) (op s : Text) : Except Text Bool :=
  let entry := entryAt? c.tree s true
  match op with
  | ['-', 'n'] => .ok !s.isEmpty
  | ['-', 'z'] => .ok s.isEmpty
  | ['-', 't'] => (number c s).map fun _ => false
  | ['-', 'v'] => .ok (c.isSet s)
  | ['-', 'f'] => .ok (entry.any Entry.isFile)
  | ['-', 'd'] => .ok (entry.any Entry.isDir)
  | ['-', 'c'] =>
    .ok (entry.any fun
      | .device => true
      | _ => false)
  | ['-', 'x'] =>
    .ok (entry.any fun
      | .dir => true
      | .file _ executable _ => executable
      | _ => false)
  | ['-', 's'] =>
    .ok (entry.any fun
      | .dir => true
      | .file content _ _ => content.size != 0
      | _ => false)
  | ['-', 'h'] | ['-', 'L'] =>
    .ok ((entryAt? c.tree s false).any fun
      | .link _ => true
      | _ => false)
  | ['-', l] => .ok (("erwOGa" : String).toList.contains l && entry.isSome)
  | _ => .ok false

/-- When a file was changed. -/
def modified? (c : Context) (s : Text) : Option Nat :=
  (entryAt? c.tree s true).map fun
    | .file _ _ modified => modified
    | _ => 0

/-- The order of numbers that a word asks for. -/
def comparison? : Text → Option (Int → Int → Bool)
  | ['-', 'e', 'q'] => some fun a b => a == b
  | ['-', 'n', 'e'] => some fun a b => a != b
  | ['-', 'l', 't'] => some fun a b => a < b
  | ['-', 'l', 'e'] => some fun a b => a ≤ b
  | ['-', 'g', 't'] => some fun a b => b < a
  | ['-', 'g', 'e'] => some fun a b => b ≤ a
  | _ => none

/-- A condition on two operands. -/
def binary (c : Context) (a op b : Text) : Except Text Bool :=
  match comparison? op with
  | some compare => do return compare (← number c a) (← number c b)
  | none =>
    let place? (s : Text) := (c.tree.find (Octets.path s) true).toOption.map (·.1)
    .ok (match op with
      | ['='] | ['=', '='] => a == b
      | ['!', '='] => a != b
      | ['<'] => decide (a < b)
      | ['>'] => decide (b < a)
      | ['-', 'e', 'f'] => (place? a).isSome && place? a == place? b
      | ['-', 'n', 't'] => (modified? c a).any fun x => (modified? c b).all fun y => y < x
      | _ => (modified? c b).any fun y => (modified? c a).all fun x => x < y)

/-- The kind of the word at the front. A word for a condition on one operand is an operand itself
if it comes last or in front of a word for a condition on two. -/
def lex? (dialect : Dialect) (words : List Text) : Option Kind :=
  match words with
  | [] => none
  | word :: rest =>
    match kindOf? dialect word with
    | some .unary =>
      match rest with
      | [] => none
      | [_] => some .unary
      | next :: _ => if kindOf? dialect next = some .binary then none else some .unary
    | some .opening => if rest.isEmpty then none else some .opening
    | kind => kind

def complaint (word : Text) (what : String) : Text :=
  if word.isEmpty then what.toList else word ++ (": " : Text) ++ what.toList

mutual

/-- Conditions joined by `-o`; answers also with the words from the last one that was used on. -/
def anyOf (c : Context) : (fuel : Nat) → List Text → Except Text (Bool × List Text)
  | 0, words => .ok (false, words)
  | fuel + 1, words => do
    let (first, words) ← allOf c fuel words
    if lex? c.dialect (words.drop 1) = some .disjunction then do
      let (second, words) ← anyOf c fuel (words.drop 2)
      .ok (first || second, words)
    else .ok (first, words)

/-- Conditions joined by `-a`. -/
def allOf (c : Context) : (fuel : Nat) → List Text → Except Text (Bool × List Text)
  | 0, words => .ok (false, words)
  | fuel + 1, words => do
    let (first, words) ← notOf c fuel (lex? c.dialect words) words
    if lex? c.dialect (words.drop 1) = some .conjunction then do
      let (second, words) ← allOf c fuel (words.drop 2)
      .ok (first && second, words)
    else .ok (first, words)

/-- A condition that may be negated. -/
def notOf (c : Context) : (fuel : Nat) → Option Kind → List Text → Except Text (Bool × List Text)
  | 0, _, words => .ok (false, words)
  | fuel + 1, kind, words =>
    if kind = some .not then
      match words.drop 1 with
      | [] => .ok (true, words)
      | rest => (notOf c fuel (lex? c.dialect rest) rest).map fun (b, words) => (!b, words)
    else oneOf c fuel kind words

/-- One condition, of which the first word is taken for something of a kind. -/
def oneOf (c : Context) : (fuel : Nat) → Option Kind → List Text → Except Text (Bool × List Text)
  | 0, _, words => .ok (false, words)
  | _, _, [] => .ok (false, [])
  | fuel + 1, kind, word :: rest =>
    match kind with
    | some .opening =>
      if lex? c.dialect rest = some .closing then .ok (false, rest)
      else do
        let (b, words) ← anyOf c fuel rest
        if lex? c.dialect (words.drop 1) = some .closing then .ok (b, words.drop 1)
        else .error "closing paren expected"
    | some .unary =>
      match rest with
      | [] => .error (complaint word "argument expected")
      | operand :: _ => (unary c word operand).map (·, rest)
    | _ =>
      match rest with
      | op :: after =>
        if lex? c.dialect rest = some .binary then
          match after with
          | operand :: _ => (binary c word op operand).map (·, after)
          | [] => .error (complaint op "argument expected")
        else .ok (!word.isEmpty, word :: rest)
      | [] => .ok (!word.isEmpty, [word])

end

/-- Whether words make a true condition in the plain shell. -/
def plainHolds (c : Context) : (fuel : Nat) → List Text → Except Text Bool
  | 0, _ => .ok false
  | _, [] => .ok false
  | fuel + 1, words =>
    let size := 4 * words.length + 8
    let finish (result : Except Text (Bool × List Text)) : Except Text Bool := do
      let (b, words) ← result
      match words with
      | word :: _ :: _ => .error (complaint word "unexpected operator")
      | _ => .ok b
    let parsed (words : List Text) : Except Text Bool := finish (anyOf c size words)
    match words with
    | [a, op, b] =>
      if kindOf? c.dialect op = some .binary then (binary c a op b).map id
      else if a = ['('] ∧ b = [')'] then parsed [op]
      else if a = ['!'] then (plainHolds c fuel [op, b]).map not
      else parsed words
    | ['('] :: rest =>
      if rest.length = 3 ∧ rest.getLast? = some [')'] then parsed rest.dropLast else parsed words
    | ['!'] :: rest => if rest.length = 3 then (plainHolds c fuel rest).map not else parsed words
    | _ => parsed words

/-- Whether words make a true condition in the larger shell, which goes by their number first. -/
def richHolds (c : Context) : (fuel : Nat) → List Text → Except Text Bool
  | 0, _ => .ok false
  | _, [] => .ok false
  | _, [a] => .ok !a.isEmpty
  | _ + 1, [a, b] =>
    if a = ['!'] then .ok b.isEmpty
    else if kindOf? c.dialect a = some .unary || a == ['-', 'a'] then unary c a b
    else .error (complaint a "unary operator expected")
  | fuel + 1, [a, op, b] =>
    if kindOf? c.dialect op = some .binary then binary c a op b
    else if op = ['-', 'a'] then .ok (!a.isEmpty && !b.isEmpty)
    else if op = ['-', 'o'] then .ok (!a.isEmpty || !b.isEmpty)
    else if a = ['!'] then (richHolds c fuel [op, b]).map not
    else if a = ['('] ∧ b = [')'] then .ok !op.isEmpty
    else .error (complaint op "binary operator expected")
  | fuel + 1, words =>
    let parsed (words : List Text) : Except Text Bool := do
      match anyOf c (4 * words.length + 8) words with
      | .ok (b, [_]) => .ok b
      | .ok _ => .error "too many arguments"
      | .error e => .error e
    match words with
    | ['!'] :: rest => if rest.length = 3 then (richHolds c fuel rest).map not else parsed words
    | ['('] :: rest =>
      if rest.length = 3 ∧ rest.getLast? = some [')'] then richHolds c fuel rest.dropLast
      else parsed words
    | _ => parsed words

/-- Whether the words make a true condition, or what is wrong with them. -/
def holds (c : Context) (words : List Text) : Except Text Bool :=
  match c.dialect with
  | .dash => plainHolds c 8 words
  | .bash => richHolds c 8 words


end CompileFail.Script.Condition
