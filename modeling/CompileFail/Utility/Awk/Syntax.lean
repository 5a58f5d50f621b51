import CompileFail.Regex.Search
import CompileFail.Decimal.Places
import CompileFail.Text.Octets

/-! The language of `awk`: what its programs consist of, and their tokens. -/

namespace CompileFail.Utility.Awk

mutual

/-- Where `getline` reads from. -/
inductive Origin where
  | main
  | file (name : Expr)
  | command (text : Expr)

inductive Expr where
  | num (x : Float)
  | str (s : Octets)
  | regex (r : Regex)
  | var (name : Octets)
  | field (index : Expr)
  | item (array : Octets) (index : List Expr)
  /-- Some expressions in parentheses. -/
  | group (items : List Expr)
  | assign (target : Expr) (op : Option Char) (value : Expr)
  | choice (test yes no : Expr)
  | and (a b : Expr)
  | or (a b : Expr)
  | not (e : Expr)
  | minus (e : Expr)
  | plus (e : Expr)
  | arith (op : Char) (a b : Expr)
  | compare (op : String) (a b : Expr)
  | fits (negated : Bool) (e pattern : Expr)
  | contains (index : List Expr) (array : Octets)
  /-- Counts up or down; answers with the value before or behind. -/
  | count (target : Expr) (up before : Bool)
  | call (name : Octets) (args : List Expr)
  | builtin (name : String) (args : List Expr)
  | concat (a b : Expr)
  | getline (origin : Origin) (target : Option Expr)

end

/-- Where printed text goes. -/
inductive Target where
  | output
  | file (appends : Bool) (name : Expr)
  | command (text : Expr)

inductive Stmt where
  | block (body : List Stmt)
  | expr (e : Expr)
  | print (items : List Expr) (target : Target)
  | printf (items : List Expr) (target : Target)
  | choice (test : Expr) (yes : Stmt) (no : Option Stmt)
  | loop (first : Option Stmt) (test : Option Expr) (step : Option Stmt) (body : Stmt)
  | loopOnce (body : Stmt) (test : Expr)
  | each (name array : Octets) (body : Stmt)
  | next
  | nextFile
  | exit (code : Option Expr)
  | result (value : Option Expr)
  | leave
  | goOn
  | delete (array : Octets) (index : Option (List Expr))

inductive Pattern where
  | always
  | test (e : Expr)
  | range (first last : Expr)

structure Rule where
  pattern : Pattern
  /-- What is done; the record is printed if there is nothing. -/
  action : Option Stmt

structure Function where
  name : Octets
  params : List Octets
  body : Stmt

structure Program where
  start : List Stmt := []
  rules : List Rule := []
  finish : List Stmt := []
  functions : List Function := []

inductive Token where
  | num (x : Float)
  | str (s : Octets)
  | regex (s : Octets)
  | name (s : Octets)
  /-- A name with a parenthesis right behind it. -/
  | function (s : Octets)
  | word (s : String)
  | builtin (s : String)
  | sym (s : String)
  | newline
deriving BEq

/-- A token with the number of its line. -/
structure Spot where
  token : Token
  line : Nat

def Token.text : Token → Octets
  | num x => (Decimal.Ratio.ofFloat x).general 6 false 'e'
  | str s => '"' :: s ++ ['"']
  | regex s => '/' :: s ++ ['/']
  | name s | function s => s
  | word s | builtin s | sym s => s.toList
  | newline => "end of line".toList

/-! Numbers in texts. -/

/-- The number at the front of a text, and what follows it. -/
def leadingNumber? (s : Octets) : Option (Float × Octets) :=
  let (negative, body) := match s with
    | '-' :: s => (true, s)
    | '+' :: s => (false, s)
    | s => (false, s)
  let signed (x : Float) : Float := if negative then -x else x
  if ("0x" : Text).isPrefixOf (Text.asciiLower body) then
    let (n, rest) := Text.leadingDigits 16 body.length (body.drop 2)
    if rest.length + 2 < body.length then some (signed (Float.ofNat n), rest)
    else some (signed 0, body.drop 1)
  else
    let whole := body.takeWhile Char.isDigit
    let rest := body.drop whole.length
    let (fraction, rest) := match rest with
      | '.' :: after =>
        let fraction := after.takeWhile Char.isDigit
        if whole.isEmpty && fraction.isEmpty then ([], rest)
        else (fraction, after.drop fraction.length)
      | _ => ([], rest)
    if whole.isEmpty && fraction.isEmpty then none
    else
      let mantissa := (Text.leadingDigits 10 (whole ++ fraction).length (whole ++ fraction)).1
      let exponent (below : Bool) (s : Octets) : Option (Bool × Nat × Octets) :=
        let digits := s.takeWhile Char.isDigit
        (Text.toNat? digits).map fun n => (below, min n 5000, s.drop digits.length)
      let found := match rest with
        | e :: sign :: after =>
          if e ≠ 'e' ∧ e ≠ 'E' then none
          else if sign = '-' then exponent true after
          else if sign = '+' then exponent false after
          else exponent false (sign :: after)
        | _ => none
      let (below, n, rest) := found.getD (false, 0, rest)
      let e : Int := (if below then -(n : Int) else n) - fraction.length
      some (signed (Float.ofScientific mantissa (e < 0) e.natAbs), rest)

/-! Reading tokens. -/

def isNameStart (c : Char) : Bool := c.isAlpha || c == '_'

def isNamePart (c : Char) : Bool := c.isAlphanum || c == '_'

def words : List String :=
  ["BEGIN", "END", "function", "func", "if", "else", "while", "for", "do", "break", "continue",
    "next", "nextfile", "exit", "return", "delete", "in", "getline", "print", "printf"]

def builtins : List String :=
  ["length", "substr", "index", "split", "sub", "gsub", "match", "sprintf", "sin", "cos", "atan2",
    "exp", "log", "sqrt", "int", "rand", "srand", "tolower", "toupper", "system", "close", "fflush"]

def symbols : List String :=
  ["**=", "&&", "||", "++", "--", "+=", "-=", "*=", "/=", "%=", "^=", "==", "<=", ">=", "!=", "!~",
    ">>", "\x7b", "\x7d", "(", ")", "[", "]", ";", ",", "+", "-", "*", "%", "^", "!", ">", "<", "|",
    "?", ":", "~", "$", "=", "/"]

/-- Whether an operand has just ended, so that a slash divides. -/
def endsOperand : Option Token → Bool
  | some (.num _) | some (.str _) | some (.name _) | some (.builtin _) | some (.regex _) => true
  | some (.sym s) => s == ")" || s == "]" || s == "$" || s == "++" || s == "--"
  | _ => false

/-- The characters of a text in quotes up to its end. -/
def quoted : (fuel : Nat) → Octets → Option (Octets × Octets)
  | 0, _ => none
  | _, [] => none
  | _, '"' :: s => some ([], s)
  | _, '\n' :: _ => none
  | fuel + 1, '\\' :: c :: s =>
    let one (front : Octets) (s : Octets) := (quoted fuel s).map fun (t, rest) => (front ++ t, rest)
    match c with
    | 'n' => one ['\n'] s
    | 't' => one ['\t'] s
    | 'r' => one ['\r'] s
    | 'a' => one ['\x07'] s
    | 'b' => one ['\x08'] s
    | 'f' => one ['\x0c'] s
    | 'v' => one ['\x0b'] s
    | '\\' => one ['\\'] s
    | '"' => one ['"'] s
    | '/' => one ['/'] s
    | '\n' => one [] s
    | c =>
      if '0' ≤ c ∧ c ≤ '7' then
        let digits := ((c :: s).take 3).takeWhile fun c => '0' ≤ c && c ≤ '7'
        one [Char.ofNat ((Text.leadingDigits 8 3 digits).1 % 256)] ((c :: s).drop digits.length)
      else one ['\\', c] s
  | fuel + 1, c :: s => (quoted fuel s).map fun (t, rest) => (c :: t, rest)

/-- The characters of an expression up to the slash at its end; brackets may hold slashes. -/
def slashed : (inBracket : Bool) → Octets → Option (Octets × Octets)
  | _, [] => none
  | _, '\n' :: _ => none
  | inBracket, '\\' :: c :: s =>
    (slashed inBracket s).map fun (t, rest) => ((if c = '/' then ['/'] else ['\\', c]) ++ t, rest)
  | inBracket, c :: s =>
    if c = '/' ∧ !inBracket then some ([], s)
    else
      let inBracket := if c = '[' then true else if c = ']' then false else inBracket
      (slashed inBracket s).map fun (t, rest) => (c :: t, rest)

/-- The text of an expression with characters in place of their escapes. -/
def plainRegex : Octets → Octets
  | '\\' :: 'n' :: s => '\n' :: plainRegex s
  | '\\' :: 't' :: s => '\t' :: plainRegex s
  | '\\' :: 'r' :: s => '\r' :: plainRegex s
  | '\\' :: 'f' :: s => '\x0c' :: plainRegex s
  | '\\' :: '/' :: s => '/' :: plainRegex s
  | '\\' :: '"' :: s => '"' :: plainRegex s
  | '\\' :: '&' :: s => '&' :: plainRegex s
  | '\\' :: c :: s => '\\' :: c :: plainRegex s
  | c :: s => c :: plainRegex s
  | [] => []

/-- What is wrong with a program, and in which line. -/
structure Wrong where
  line : Nat
  message : Octets
  /-- It is a character that no token starts with. -/
  isCharacter : Bool := false

/-- The tokens of a program, the last one first in `seen`. -/
def scan : (fuel : Nat) → (line : Nat) → (seen : List Spot) → Octets → Except Wrong (List Spot)
  | 0, _, seen, _ => .ok seen.reverse
  | _, _, seen, [] => .ok seen.reverse
  | fuel + 1, line, seen, c :: s =>
    let put (t : Token) (rest : Octets) := scan fuel line (⟨t, line⟩ :: seen) rest
    if c = ' ' ∨ c = '\t' ∨ c = '\r' then scan fuel line seen s
    else if c = '\n' then scan fuel (line + 1) (⟨.newline, line⟩ :: seen) s
    else if c = '\\' then
      match s with
      | '\n' :: s => scan fuel (line + 1) seen s
      | '\r' :: '\n' :: s => scan fuel (line + 1) seen s
      | _ => .error ⟨line, "unexpected character '\\'", true⟩
    else if c = '#' then scan fuel line seen (s.dropWhile (· != '\n'))
    else if c = '"' then
      match quoted (s.length + 1) s with
      | some (t, rest) => put (.str t) rest
      | none => .error ⟨line, ("runaway string constant \"" : Text) ++ s.take 10 ++ (" ..." : Text), false⟩
    else if c.isDigit || c == '.' && (s.head?.map Char.isDigit).getD false then
      match leadingNumber? (if c = '0' then '0' :: s.dropWhile (fun c => c == 'x' || c == 'X') else c :: s) with
      | some (x, rest) =>
        if c = '0' ∧ (s.head? = some 'x' ∨ s.head? = some 'X') then put (.num 0) s else put (.num x) rest
      | none => put (.num 0) s
    else if isNameStart c then
      let name := (c :: s).takeWhile isNamePart
      let rest := (c :: s).drop name.length
      let text := String.ofList name
      if words.contains text then put (.word (if text = "func" then "function" else text)) rest
      else if builtins.contains text then put (.builtin text) rest
      else if rest.head? = some '(' then put (.function name) rest
      else put (.name name) rest
    else if c = '/' ∧ !endsOperand (seen.head?.map (·.token)) then
      match slashed false s with
      | some (t, rest) => put (.regex (plainRegex t)) rest
      | none => .error ⟨line, ("runaway regular expression /" : Text) ++ s.takeWhile (· != '\n') ++ (" ..." : Text), false⟩
    else
      match symbols.find? fun sym => sym.toList.isPrefixOf (c :: s) with
      | some sym => put (.sym sym) ((c :: s).drop sym.length)
      | none => .error ⟨line, ("unexpected character '" : Text) ++ [c, '\''], true⟩

end CompileFail.Utility.Awk
