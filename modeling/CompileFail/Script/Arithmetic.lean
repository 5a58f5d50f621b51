import CompileFail.Script.Variables

/-! Arithmetic in shell scripts. Numbers are signed and have 64 bits. An expression is calculated
while it is read, so that of two things that are wrong with it the one further to the front is
reported. -/

namespace CompileFail.Script

inductive Operator where
  | bitOr
  | bitXor
  | bitAnd
  | equal
  | unequal
  | less
  | greater
  | atMost
  | atLeast
  | shiftLeft
  | shiftRight
  | plus
  | minus
  | times
  | divide
  | remainder
  | power
deriving DecidableEq, Repr

namespace Operator

def text : Operator → Text
  | bitOr => "|"
  | bitXor => "^"
  | bitAnd => "&"
  | equal => "=="
  | unequal => "!="
  | less => "<"
  | greater => ">"
  | atMost => "<="
  | atLeast => ">="
  | shiftLeft => "<<"
  | shiftRight => ">>"
  | plus => "+"
  | minus => "-"
  | times => "*"
  | divide => "/"
  | remainder => "%"
  | power => "**"

/-- How tightly an operator binds its operands. -/
def level : Operator → Nat
  | bitOr => 3
  | bitXor => 4
  | bitAnd => 5
  | equal | unequal => 6
  | less | greater | atMost | atLeast => 7
  | shiftLeft | shiftRight => 8
  | plus | minus => 9
  | times | divide | remainder => 10
  | power => 11

def ofText? (s : Text) : Option Operator :=
  [bitOr, bitXor, bitAnd, equal, unequal, less, greater, atMost, atLeast, shiftLeft, shiftRight,
    plus, minus, times, divide, remainder, power].find? fun op => op.text == s

/-- Whether an equals sign behind the operator makes an assignment of it. -/
def mayAssign (op : Operator) : Bool :=
  (8 ≤ op.level && op.level ≤ 10) || (3 ≤ op.level && op.level ≤ 5)

end Operator

namespace Arithmetic

def wrap (n : Int) : Int := n.bmod (Nat.pow 2 64)

/-- The largest number. -/
def largest : Nat := Nat.pow 2 63 - 1

/-- A number in decimal digits. -/
def toText (n : Int) : Text := if n < 0 then '-' :: Text.ofNat n.natAbs else Text.ofNat n.natAbs

def ofBool (b : Bool) : Int := if b then 1 else 0

def isBlank (c : Char) : Bool :=
  c == ' ' || c == '\t' || c == '\n' || c == '\r' || c == '\x0b' || c == '\x0c'

/-- The number at the front of a text and what follows it: in decimal, octal or hexadecimal digits.
One that is too large counts as the largest. -/
def leadingNumber (s : Text) : Nat × Text :=
  let (n, rest) := match s with
    | '0' :: x :: d :: rest =>
      if (x == 'x' || x == 'X') && (Text.leadingDigits 16 1 [d]).2.isEmpty then
        Text.leadingDigits 16 (d :: rest).length (d :: rest)
      else Text.leadingDigits 8 s.length s
    | '0' :: _ => Text.leadingDigits 8 s.length s
    | _ => Text.leadingDigits 10 s.length s
  (min n largest, rest)

/-- The number at the front of a text, blanks and a sign before it included, and the rest; `none`
if there are no digits. -/
def signedNumber? (s : Text) : Option (Int × Text) :=
  let s := s.dropWhile isBlank
  let (negative, body) := match s with
    | '-' :: s => (true, s)
    | '+' :: s => (false, s)
    | s => (false, s)
  if body.head?.any Char.isDigit then
    let (n, rest) := leadingNumber body
    some (if negative then 0 - n else n, rest)
  else none

/-- The number that a whole text stands for; blanks may stand around it. -/
def ofText? (s : Text) : Option Int :=
  match signedNumber? s with
  | some (n, rest) => if rest.all isBlank then some n else none
  | none => none

/-- The value of an operation on two numbers; `none` for a division by zero. -/
def combine (op : Operator) (a b : Int) : Option Int :=
  let bits (f : BitVec 64 → BitVec 64 → BitVec 64) : Int :=
    (f (BitVec.ofInt 64 a) (BitVec.ofInt 64 b)).toInt
  match op with
  | .bitOr => some (bits (· ||| ·))
  | .bitXor => some (bits (· ^^^ ·))
  | .bitAnd => some (bits (· &&& ·))
  | .equal => some (ofBool (a == b))
  | .unequal => some (ofBool (a != b))
  | .less => some (ofBool (a < b))
  | .greater => some (ofBool (b < a))
  | .atMost => some (ofBool (a ≤ b))
  | .atLeast => some (ofBool (b ≤ a))
  | .shiftLeft => some (wrap (a * (Nat.pow 2 (b % 64).toNat : Nat)))
  | .shiftRight => some (a / (Nat.pow 2 (b % 64).toNat : Nat))
  | .plus => some (wrap (a + b))
  | .minus => some (wrap (a - b))
  | .times => some (wrap (a * b))
  | .divide => if b = 0 then none else some (wrap (a.tdiv b))
  | .remainder => if b = 0 then none else some (wrap (a.tmod b))
  | .power => some (wrap ((List.range (min b.toNat 64)).foldl (fun n _ => wrap (n * a)) 1))

inductive Item where
  | number (n : Int)
  | name (name : Text)
  | sign (text : Text)
  /-- A character with which nothing begins. -/
  | bad
  /-- A number that has a digit too many for its base. -/
  | wrongDigit
  | finish
deriving DecidableEq

/-- All signs; one that starts like another comes before it if it is longer. -/
def signs (dialect : Dialect) : List Text :=
  let shared := ["<<=", ">>=", "||", "&&", "==", "!=", "<=", ">=", "<<", ">>", "+=", "-=", "*=",
    "/=", "%=", "|=", "&=", "^=", "(", ")", "|", "&", "^", "=", "<", ">", "+", "-", "*", "/", "%",
    "!", "~", "?", ":"]
  match dialect with
  | .dash => shared.map String.toList
  | .bash => (["**", "++", "--", ",", "[", "]"] ++ shared).map String.toList

/-- A number with its base in front, at the start of a text in which a digit comes first. -/
def basedNumber (s : Text) : Item × Text :=
  let word := s.takeWhile fun c => c.isAlphanum || c == '#' || c == '@' || c == '_'
  let rest := s.drop word.length
  let value (c : Char) : Nat :=
    if c.isDigit then c.toNat - '0'.toNat
    else if c.isLower then c.toNat - 'a'.toNat + 10
    else if c.isUpper then c.toNat - 'A'.toNat + 36
    else if c == '@' then 62 else 63
  let digits (base : Nat) (s : Text) : Item :=
    let value (c : Char) : Nat := if base ≤ 36 then value c.toLower else value c
    if s.all fun c => value c < base then
      .number (wrap (s.foldl (fun n c => base * n + value c) 0 : Nat))
    else .wrongDigit
  let item := match Text.splitOnce? '#' word, word with
    | some (base, s), _ => digits ((Text.toNat? base).getD 10) s
    | none, '0' :: 'x' :: s => digits 16 s
    | none, '0' :: 'X' :: s => digits 16 s
    | none, '0' :: s => digits 8 s
    | none, s => digits 10 s
  (item, rest)

/-- What an expression goes on with, and what follows that. -/
def nextItem (dialect : Dialect) (s : Text) : Item × Text :=
  match s.dropWhile isBlank with
  | [] => (.finish, [])
  | c :: s =>
    if c.isDigit then
      match dialect with
      | .dash =>
        let (n, rest) := leadingNumber (c :: s)
        (.number n, rest)
      | .bash => basedNumber (c :: s)
    else if isNameStart c then
      (.name ((c :: s).takeWhile isNameChar), (c :: s).dropWhile isNameChar)
    else match (signs dialect).find? (·.isPrefixOf (c :: s)) with
      | some sign => (.sign sign, (c :: s).drop sign.length)
      | none => (.bad, s)

inductive Failure where
  | noOperand
  | noParenthesis
  | noColon
  | notAtEnd
  | divisionByZero
  | wrongDigit
  | notANumber (text : Text)
  | readOnly (name : Text)
  | tooDeep
  | notAVariable
deriving DecidableEq

structure Calculation where
  dialect : Dialect
  whole : Text
  rest : Text
  /-- Where the last item began. -/
  mark : Text := []
  vars : Variables
  /-- How many variables stand for the expression that is calculated. -/
  depth : Nat := 0

abbrev Calc (α : Type) := ExceptT Failure (StateM Calculation) α

namespace Calc

def peek : Calc Item := do
  let c ← get
  return (nextItem c.dialect c.rest).1

def skip : Calc Unit := modify fun c =>
  { c with mark := c.rest.dropWhile isBlank, rest := (nextItem c.dialect c.rest).2 }

/-- Takes a sign, if it comes next. -/
def accept (sign : Text) : Calc Bool := do
  if (← peek) = .sign sign then
    skip
    return true
  else return false

/-- Fails at what comes next. -/
def failHere {α : Type} (failure : Failure) : Calc α := do
  modify fun c => { c with mark := c.rest.dropWhile isBlank }
  throw failure

end Calc

/-- What a name in an expression stands for. -/
structure Target where
  name : Text
  index : Option Nat := none
deriving DecidableEq

def readTarget (vars : Variables) (t : Target) : Option Text :=
  match t.index with
  | none => vars.get? t.name
  | some i => ((Value.elements (vars.value? t.name)).find? (·.1 == i)).map (·.2)

def writeTarget (vars : Variables) (t : Target) (s : Text) : Variables :=
  match t.index with
  | none => vars.set t.name s
  | some i =>
    vars.setValue t.name (.indexed (Value.insertAt i s (Value.elements (vars.value? t.name))))

/-- The assignment that an item makes behind a name. -/
def assigning? (item : Item) : Option (Option Operator) :=
  match item with
  | .sign ['='] => some none
  | .sign s =>
    if s.getLast? = some '=' then
      match Operator.ofText? s.dropLast with
      | some op => if op.mayAssign then some (some op) else none
      | none => none
    else none
  | _ => none

/-- An operation, or a failure at the operand if that is zero. -/
def operate (op : Operator) (a b : Int) (mark : Text) : Calc Int := do
  match combine op a b with
  | some n => return n
  | none => do
    modify ({ · with mark := mark })
    throw .divisionByZero

mutual

/-- Expressions with commas between them; the last one counts. -/
def commas (skipping : Bool) : (fuel : Nat) → Calc Int
  | 0 => throw .tooDeep
  | fuel + 1 => do
    let n ← assignment skipping fuel
    if ← Calc.accept "," then commas skipping fuel else return n

/-- An assignment, or what has a value without one. -/
def assignment (skipping : Bool) : (fuel : Nat) → Calc Int
  | 0 => throw .tooDeep
  | fuel + 1 => do
    match ← Calc.peek with
    | .name name =>
      let before ← get
      Calc.skip
      let target ← target name skipping fuel
      match assigning? (← Calc.peek) with
      | some op => do
        Calc.skip
        let mark := ((← get).rest.dropWhile isBlank)
        let n ← assignment skipping fuel
        if skipping then return n
        else
          let n ← match op with
            | none => pure n
            | some op => do operate op (← valueOf target fuel) n mark
          store target n
          return n
      | none => do
        set before
        choice skipping fuel
    | _ => choice skipping fuel

/-- What a name stands for, with the index behind it. -/
def target (name : Text) (skipping : Bool) : (fuel : Nat) → Calc Target
  | 0 => throw .tooDeep
  | fuel + 1 => do
    if ← Calc.accept "[" then
      let n ← commas skipping fuel
      if ← Calc.accept "]" then
        let size := Value.nextIndex (Value.elements ((← get).vars.value? name))
        return ⟨name, some (if n < 0 then (size + n).toNat else n.toNat)⟩
      else Calc.failHere .noParenthesis
    else return ⟨name, none⟩

def store (target : Target) (n : Int) : Calc Unit := do
  let c ← get
  if c.vars.isReadOnly target.name then throw (.readOnly target.name)
  else set { c with vars := writeTarget c.vars target (toText n) }

/-- The number that a variable stands for. In the larger shell the value may be an expression. -/
def valueOf (target : Target) : (fuel : Nat) → Calc Int
  | 0 => throw .tooDeep
  | fuel + 1 => do
    let c ← get
    let s := (readTarget c.vars target).getD []
    if s.all isBlank then return 0
    else match ofText? s, c.dialect with
      | some n, .dash => return n
      | none, .dash => throw (.notANumber s)
      | _, .bash =>
        if c.depth ≥ 1024 then throw .tooDeep
        else
          set { c with whole := s, rest := s, depth := c.depth + 1 }
          let n ← commas false fuel
          if (← Calc.peek) = .finish then
            modify fun d =>
              { d with whole := c.whole, rest := c.rest, mark := c.mark, depth := c.depth }
            return n
          else Calc.failHere .notAtEnd

def choice (skipping : Bool) : (fuel : Nat) → Calc Int
  | 0 => throw .tooDeep
  | fuel + 1 => do
    let condition ← disjunction skipping fuel
    if ← Calc.accept "?" then
      let a ← assignment (skipping || condition == 0) fuel
      if ← Calc.accept ":" then
        let b ← choice (skipping || condition != 0) fuel
        return if condition ≠ 0 then a else b
      else Calc.failHere .noColon
    else return condition

def disjunction (skipping : Bool) : (fuel : Nat) → Calc Int
  | 0 => throw .tooDeep
  | fuel + 1 => do
    let a ← conjunction skipping fuel
    if ← Calc.accept "||" then
      let b ← disjunction (skipping || a != 0) fuel
      return ofBool (a != 0 || b != 0)
    else return a

def conjunction (skipping : Bool) : (fuel : Nat) → Calc Int
  | 0 => throw .tooDeep
  | fuel + 1 => do
    let a ← operand skipping fuel
    let a ← operations skipping 3 a fuel
    if ← Calc.accept "&&" then
      let b ← conjunction (skipping || a == 0) fuel
      return ofBool (a != 0 && b != 0)
    else return a

/-- Goes on with operators that bind at least as tightly as `level`. -/
def operations (skipping : Bool) (level : Nat) (a : Int) : (fuel : Nat) → Calc Int
  | 0 => throw .tooDeep
  | fuel + 1 => do
    match ← Calc.peek with
    | .sign s =>
      match Operator.ofText? s with
      | some op =>
        if op.level < level then return a
        else
          Calc.skip
          let mark := (← get).rest.dropWhile isBlank
          let b ← operand skipping fuel
          let b ← operations skipping (if op = .power then op.level else op.level + 1) b fuel
          let n ← if skipping then pure b else operate op a b mark
          operations skipping level n fuel
      | none => return a
    | _ => return a

def operand (skipping : Bool) : (fuel : Nat) → Calc Int
  | 0 => throw .tooDeep
  | fuel + 1 => do
    match ← Calc.peek with
    | .number n => do
      Calc.skip
      return n
    | .name name => do
      Calc.skip
      let target ← target name skipping fuel
      let n ← if skipping then pure 0 else valueOf target fuel
      if ← Calc.accept "++" then
        if !skipping then store target (wrap (n + 1))
      else if ← Calc.accept "--" then
        if !skipping then store target (wrap (n - 1))
      return n
    | .sign ['('] => do
      Calc.skip
      let n ← commas skipping fuel
      if ← Calc.accept ")" then return n else Calc.failHere .noParenthesis
    | .sign ['+'] => do
      Calc.skip
      operand skipping fuel
    | .sign ['-'] => do
      Calc.skip
      return wrap (0 - (← operand skipping fuel))
    | .sign ['!'] => do
      Calc.skip
      return ofBool ((← operand skipping fuel) == 0)
    | .sign ['~'] => do
      Calc.skip
      return wrap (0 - (← operand skipping fuel) - 1)
    | .sign [a, b] =>
      if a = b ∧ (a = '+' ∨ a = '-') then
        Calc.skip
        match ← Calc.peek with
        | .name name => do
          Calc.skip
          let target ← target name skipping fuel
          let n := wrap ((← valueOf target fuel) + if a = '+' then 1 else -1)
          if !skipping then store target n
          return n
        | _ => do
          let n ← operand skipping fuel
          return n
      else throwAtOperand
    | .wrongDigit => Calc.failHere .wrongDigit
    | _ => throwAtOperand
where
  /-- There is no operand: in the larger shell at the sign in front of where it should be. -/
  throwAtOperand : Calc Int := do
    if (← Calc.peek) = .finish then throw .noOperand else Calc.failHere .noOperand

end

/-- The wording of the plain shell. -/
def Failure.message (whole : Text) (failure : Failure) : Text :=
  let quoted (reason : Text) : Text :=
    ("arithmetic expression: " : Text) ++ reason ++ (": \"" : Text) ++ whole ++ ['"']
  match failure with
  | noOperand | wrongDigit | notAVariable => quoted "expecting primary"
  | noParenthesis => quoted "expecting ')'"
  | noColon => quoted "expecting ':'"
  | notAtEnd => quoted "expecting EOF"
  | divisionByZero => quoted "division by zero"
  | notANumber s => ("Illegal number: " : Text) ++ s
  | readOnly name => name ++ (": is read only" : Text)
  | tooDeep => quoted "expression recursion level exceeded"

/-- The wording of the larger shell, which tells where it stopped. -/
def Failure.richMessage (whole mark : Text) (failure : Failure) : Text :=
  let located (reason : Text) : Text :=
    whole ++ (": " : Text) ++ reason ++ (" (error token is \"" : Text) ++ mark ++ ("\")" : Text)
  match failure with
  | noOperand => located "syntax error: operand expected"
  | noParenthesis => located "missing `)'"
  | noColon => located "`:' expected for conditional expression"
  | notAtEnd => located "syntax error in expression"
  | divisionByZero => located "division by 0"
  | wrongDigit => located "value too great for base"
  | notANumber _ => located "syntax error: operand expected"
  | readOnly name => name ++ (": readonly variable" : Text)
  | tooDeep => located "expression recursion level exceeded"
  | notAVariable => located "attempted assignment to non-variable"

/-- The value of the expression that a text consists of, and the variables behind its assignments;
or what is to be said about a failure. -/
def calculate (dialect : Dialect) (s : Text) (vars : Variables) : Except Text Int × Variables :=
  let act : Calc Int := do
    if dialect == .bash && (← Calc.peek) == Item.finish then return 0
    let fuel := 16 * s.length + 20000
    let n ← match dialect with
      | .dash => assignment false fuel
      | .bash => commas false fuel
    match ← Calc.peek with
    | .finish => return n
    | item =>
      match assigning? item with
      | some _ => Calc.failHere (if dialect == .bash then .notAVariable else .notAtEnd)
      | none => Calc.failHere .notAtEnd
  let start : Calculation := { dialect := dialect, whole := s, rest := s, vars := vars }
  match act.run.run start with
  | (.ok n, c) => (.ok n, c.vars)
  | (.error failure, c) =>
    let trimmed := c.whole.dropWhile isBlank
    (.error (match dialect with
      | .dash => failure.message s
      | .bash => failure.richMessage trimmed c.mark), c.vars)

end Arithmetic

end CompileFail.Script
