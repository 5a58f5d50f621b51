import CompileFail.Utility.Awk.Syntax

/-! Reading `awk` programs from their tokens. -/

namespace CompileFail.Utility.Awk

/-- What is left of a program. -/
structure Rest where
  spots : List Spot
  /-- The last line that was reached. -/
  line : Nat := 1
  /-- The calls of functions, each with its line. -/
  calls : List (Octets × Nat) := []

abbrev Read := StateT Rest (Except Wrong)

def peek? : Read (Option Token) := return (← get).spots.head?.map (·.token)

def advance : Read Unit :=
  modify fun r => match r.spots with
    | spot :: spots => { r with spots := spots, line := spot.line }
    | [] => r

/-- Complains about the next token. -/
def unexpected {α : Type} : Read α := do
  let r ← get
  match r.spots with
  | spot :: _ => throw ⟨spot.line, ("syntax error at or near " : Text) ++ spot.token.text, false⟩
  | [] => throw ⟨r.line + 1, "missing \x7d near end of file", false⟩

def isNext (s : String) : Read Bool := return (← peek?) == some (.sym s)

/-- Takes a symbol, if it is the next token. -/
def accept (s : String) : Read Bool := do
  if ← isNext s then
    advance
    return true
  else return false

def acceptWord (s : String) : Read Bool := do
  if (← peek?) == some (.word s) then
    advance
    return true
  else return false

def expect (s : String) : Read Unit := do
  if !(← accept s) then
    if s = ")" then
      let r ← get
      match r.spots with
      | ⟨.newline, line⟩ :: _ => throw ⟨line, "missing ) near end of line", false⟩
      | [] => throw ⟨r.line, "missing ) near end of line", false⟩
      | _ => unexpected
    else unexpected

def skipNewlines : Read Unit :=
  modify fun r =>
    let rest := r.spots.dropWhile fun spot => spot.token == .newline
    { r with spots := rest }

/-- Skips what may stand between statements. -/
def skipSeparators : Read Unit :=
  modify fun r =>
    let rest := r.spots.dropWhile fun spot => spot.token == .newline || spot.token == .sym ";"
    { r with spots := rest }

/-- Whether something can be assigned to an expression. -/
def isTarget : Expr → Bool
  | .var _ | .field _ | .item .. => true
  | _ => false

/-- What an expression may not hold where it stands. -/
structure Bans where
  greater : Bool := false
  membership : Bool := false

/-- Whether a token can start the second operand of a concatenation. -/
def startsOperand : Token → Bool
  | .num _ | .str _ | .regex _ | .name _ | .function _ | .builtin _ => true
  | .sym s => s == "$" || s == "!" || s == "(" || s == "-" || s == "+" || s == "++" || s == "--"
  | _ => false

def asRegex (s : Octets) : Read Regex := do
  match Regex.ofText .extended false false s with
  | .ok r => return r
  | .error e => throw ⟨(← get).line, ("regular expression compile failed (" : Text) ++ e ++ (")\n" : Text) ++ s, false⟩

def assigns? : Token → Option (Option Char)
  | .sym "=" => some none
  | .sym "+=" => some (some '+')
  | .sym "-=" => some (some '-')
  | .sym "*=" => some (some '*')
  | .sym "/=" => some (some '/')
  | .sym "%=" => some (some '%')
  | .sym "^=" => some (some '^')
  | _ => none

def isOneOf (symbols : List String) : Option Token → Option String
  | some (.sym s) => if symbols.contains s then some s else none
  | _ => none

/-- Whether a function that is built in can take so many arguments. -/
def takesArgs (name : String) (n : Nat) : Bool :=
  match name with
  | "length" | "srand" | "fflush" => n ≤ 1
  | "substr" => n == 2 || n == 3
  | "split" => n == 2 || n == 3
  | "sub" | "gsub" => n == 2 || n == 3
  | "index" | "match" | "atan2" => n == 2
  | "sprintf" => n ≥ 1
  | "rand" => n == 0
  | _ => n == 1

mutual

def expr (b : Bans) : (fuel : Nat) → Read Expr
  | 0 => unexpected
  | fuel + 1 => do
    let left ← ternary b fuel
    match (← peek?).bind assigns? with
    | some op =>
      if isTarget left then do
        advance
        skipNewlines
        return .assign left op (← expr b fuel)
      else unexpected
    | none => return left

def ternary (b : Bans) : (fuel : Nat) → Read Expr
  | 0 => unexpected
  | fuel + 1 => do
    let test ← disjunction b fuel
    if ← accept "?" then
      skipNewlines
      let yes ← expr b fuel
      skipNewlines
      expect ":"
      skipNewlines
      return .choice test yes (← expr b fuel)
    else return test

def disjunction (b : Bans) : (fuel : Nat) → Read Expr
  | 0 => unexpected
  | fuel + 1 => do
    let first ← conjunction b fuel
    if ← accept "||" then
      skipNewlines
      return .or first (← disjunction b fuel)
    else return first

def conjunction (b : Bans) : (fuel : Nat) → Read Expr
  | 0 => unexpected
  | fuel + 1 => do
    let first ← membership b fuel
    if ← accept "&&" then
      skipNewlines
      return .and first (← conjunction b fuel)
    else return first

def membership (b : Bans) : (fuel : Nat) → Read Expr
  | 0 => unexpected
  | fuel + 1 => do
    let first ← fitting b fuel
    moreMembership b fuel first

def moreMembership (b : Bans) : (fuel : Nat) → Expr → Read Expr
  | 0, _ => unexpected
  | fuel + 1, first => do
    if !b.membership && (← peek?) == some (.word "in") then
      advance
      match ← peek? with
      | some (.name array) => do
        advance
        let index := match first with
          | .group items => items
          | e => [e]
        moreMembership b fuel (.contains index array)
      | _ => unexpected
    else return first

def fitting (b : Bans) : (fuel : Nat) → Read Expr
  | 0 => unexpected
  | fuel + 1 => do
    let first ← comparison b fuel
    moreFitting b fuel first

def moreFitting (b : Bans) : (fuel : Nat) → Expr → Read Expr
  | 0, _ => unexpected
  | fuel + 1, first => do
    match isOneOf ["~", "!~"] (← peek?) with
    | some s => do
      advance
      let pattern ← comparison b fuel
      moreFitting b fuel (.fits (s == "!~") first pattern)
    | none => return first

def comparison (b : Bans) : (fuel : Nat) → Read Expr
  | 0 => unexpected
  | fuel + 1 => do
    let first ← fromCommands b fuel (← concatenation b fuel)
    match isOneOf (if b.greater then ["<", "<=", "==", "!=", ">="] else ["<", "<=", "==", "!=", ">=", ">"])
        (← peek?) with
    | some op => do
      advance
      return .compare op first (← fromCommands b fuel (← concatenation b fuel))
    | none => return first

/-- Reads from the command that the expression in front gives. -/
def fromCommands (b : Bans) : (fuel : Nat) → Expr → Read Expr
  | 0, _ => unexpected
  | fuel + 1, first => do
    match (← get).spots with
    | ⟨.sym "|", _⟩ :: ⟨.word "getline", _⟩ :: _ => do
      advance
      advance
      let target ← target? fuel
      fromCommands b fuel (.getline (.command first) target)
    | _ => return first

def concatenation (b : Bans) : (fuel : Nat) → Read Expr
  | 0 => unexpected
  | fuel + 1 => do
    let first ← additive b fuel
    moreConcatenation b fuel first

def moreConcatenation (b : Bans) : (fuel : Nat) → Expr → Read Expr
  | 0, _ => unexpected
  | fuel + 1, first => do
    match ← peek? with
    | some t =>
      if startsOperand t then do
        let second ← additive b fuel
        moreConcatenation b fuel (.concat first second)
      else return first
    | none => return first

def additive (b : Bans) : (fuel : Nat) → Read Expr
  | 0 => unexpected
  | fuel + 1 => do
    let first ← multiplicative b fuel
    moreAdditive b fuel first

def moreAdditive (b : Bans) : (fuel : Nat) → Expr → Read Expr
  | 0, _ => unexpected
  | fuel + 1, first => do
    match isOneOf ["+", "-"] (← peek?) with
    | some op => do
      advance
      let second ← multiplicative b fuel
      moreAdditive b fuel (.arith (op.toList.headD '+') first second)
    | none => return first

def multiplicative (b : Bans) : (fuel : Nat) → Read Expr
  | 0 => unexpected
  | fuel + 1 => do
    let first ← unary b fuel
    moreMultiplicative b fuel first

def moreMultiplicative (b : Bans) : (fuel : Nat) → Expr → Read Expr
  | 0, _ => unexpected
  | fuel + 1, first => do
    match isOneOf ["*", "/", "%"] (← peek?) with
    | some op => do
      advance
      let second ← unary b fuel
      moreMultiplicative b fuel (.arith (op.toList.headD '*') first second)
    | none => return first

def unary (b : Bans) : (fuel : Nat) → Read Expr
  | 0 => unexpected
  | fuel + 1 => do
    if ← accept "!" then return .not (← unary b fuel)
    else if ← accept "-" then return .minus (← unary b fuel)
    else if ← accept "+" then return .plus (← unary b fuel)
    else power b fuel

def power (b : Bans) : (fuel : Nat) → Read Expr
  | 0 => unexpected
  | fuel + 1 => do
    let base ← counted b fuel
    if ← accept "^" then return .arith '^' base (← unaryPower b fuel)
    else return base

def unaryPower (b : Bans) : (fuel : Nat) → Read Expr
  | 0 => unexpected
  | fuel + 1 => do
    if ← accept "-" then return .minus (← unaryPower b fuel)
    else if ← accept "+" then return .plus (← unaryPower b fuel)
    else power b fuel

/-- An operand that may be counted up or down. -/
def counted (b : Bans) : (fuel : Nat) → Read Expr
  | 0 => unexpected
  | fuel + 1 => do
    if ← accept "++" then
      let e ← primary b fuel
      if isTarget e then return .count e true true else unexpected
    else if ← accept "--" then
      let e ← primary b fuel
      if isTarget e then return .count e false true else unexpected
    else
      let e ← primary b fuel
      if isTarget e then
        if ← accept "++" then return .count e true false
        else if ← accept "--" then return .count e false false
        else return e
      else return e

/-- Expressions between commas up to a closing symbol. -/
def items (b : Bans) (close : String) : (fuel : Nat) → Read (List Expr)
  | 0 => unexpected
  | fuel + 1 => do
    let first ← expr b fuel
    skipNewlines
    if ← accept "," then
      skipNewlines
      return first :: (← items b close fuel)
    else
      expect close
      return [first]

/-- What is behind `getline`: where the text goes. -/
def target? : (fuel : Nat) → Read (Option Expr)
  | 0 => unexpected
  | fuel + 1 => do
    match ← peek? with
    | some (.name _) | some (.sym "$") => some <$> primary {} fuel
    | _ => return none

def primary (b : Bans) : (fuel : Nat) → Read Expr
  | 0 => unexpected
  | fuel + 1 => do
    match ← peek? with
    | some (.num x) => do
      advance
      return .num x
    | some (.str s) => do
      advance
      return .str s
    | some (.regex s) => do
      advance
      return .regex (← asRegex s)
    | some (.sym "$") => do
      advance
      if ← accept "++" then return .field (.count (← primary b fuel) true true)
      else if ← accept "--" then return .field (.count (← primary b fuel) false true)
      else if ← accept "-" then return .field (.minus (← primary b fuel))
      else return .field (← primary b fuel)
    | some (.sym "(") => do
      advance
      skipNewlines
      let all ← items {} ")" fuel
      return .group all
    | some (.name s) => do
      advance
      if ← accept "[" then return .item s (← items {} "]" fuel)
      else return .var s
    | some (.function s) => do
      let line := ((← get).spots.head?.map (·.line)).getD 1
      advance
      advance
      modify fun r => { r with calls := (s, line) :: r.calls }
      skipNewlines
      if ← accept ")" then return .call s []
      else return .call s (← items {} ")" fuel)
    | some (.builtin s) => do
      let line := ((← get).spots.head?.map (·.line)).getD 1
      advance
      let args ← if ← accept "(" then do
          skipNewlines
          if ← accept ")" then pure [] else items {} ")" fuel
        else if s = "length" then pure []
        else unexpected
      if takesArgs s args.length then return .builtin s args
      else throw ⟨line, ("wrong number of arguments in call to " : Text) ++ s.toList, false⟩
    | some (.word "getline") => do
      advance
      let target ← target? fuel
      if ← accept "<" then return .getline (.file (← primary b fuel)) target
      else return .getline .main target
    | _ => unexpected

end

/-- What closes a simple statement; a brace behind it stays. -/
def closeSimple : Read Unit := do
  match ← peek? with
  | some .newline | some (.sym ";") => do
    advance
    skipNewlines
  | some (.sym "\x7d") => return
  | none => return
  | _ => unexpected

/-- Where the text of a print goes. -/
def target (fuel : Nat) : Read Target := do
  let word : Read Expr := concatenation { greater := true } fuel
  if ← accept ">" then return .file false (← word)
  else if ← accept ">>" then return .file true (← word)
  else if ← accept "|" then return .command (← word)
  else return .output

/-- The expressions behind a print, without those in parentheses around all. -/
def printed (fuel : Nat) : Read (List Expr) := do
  match ← peek? with
  | none | some .newline | some (.sym ";") | some (.sym "\x7d") | some (.sym ">") | some (.sym ">>") |
      some (.sym "|") => return []
  | _ => do
    let all ← many fuel
    match all with
    | [.group items] => return items
    | all => return all
where
  many : (fuel : Nat) → Read (List Expr)
    | 0 => unexpected
    | fuel + 1 => do
      let first ← expr { greater := true } fuel
      if ← accept "," then
        skipNewlines
        return first :: (← many fuel)
      else return [first]

mutual

/-- A statement without what closes it. -/
def simple : (fuel : Nat) → Read Stmt
  | 0 => unexpected
  | fuel + 1 => do
    if ← acceptWord "print" then
      let all ← printed fuel
      return .print all (← target fuel)
    else if ← acceptWord "printf" then
      let all ← printed fuel
      if all.isEmpty then unexpected
      return .printf all (← target fuel)
    else if ← acceptWord "delete" then
      match ← peek? with
      | some (.name array) => do
        advance
        if ← accept "[" then return .delete array (some (← items {} "]" fuel))
        else return .delete array none
      | _ => unexpected
    else return .expr (← expr {} fuel)

/-- The body of a statement, which may stand on the next line. -/
def body : (fuel : Nat) → Read Stmt
  | 0 => unexpected
  | fuel + 1 => do
    skipNewlines
    if ← accept ";" then
      skipNewlines
      return .block []
    else statement fuel

def statement : (fuel : Nat) → Read Stmt
  | 0 => unexpected
  | fuel + 1 => do
    let finish (s : Stmt) : Read Stmt := do
      closeSimple
      return s
    match ← peek? with
    | some (.sym "\x7b") => do
      advance
      let all ← statements fuel
      skipNewlines
      return .block all
    | some (.word "if") => do
      advance
      expect "("
      let test ← expr {} fuel
      expect ")"
      let yes ← body fuel
      let r ← get
      skipSeparators
      if ← acceptWord "else" then return .choice test yes (some (← body fuel))
      else
        set r
        return .choice test yes none
    | some (.word "while") => do
      advance
      expect "("
      let test ← expr {} fuel
      expect ")"
      return .loop none (some test) none (← body fuel)
    | some (.word "do") => do
      advance
      let inner ← body fuel
      skipSeparators
      if !(← acceptWord "while") then unexpected
      expect "("
      let test ← expr {} fuel
      expect ")"
      finish (.loopOnce inner test)
    | some (.word "for") => do
      advance
      expect "("
      match (← get).spots with
      | ⟨.name name, _⟩ :: ⟨.word "in", _⟩ :: ⟨.name array, _⟩ :: ⟨.sym ")", _⟩ :: _ => do
        advance
        advance
        advance
        advance
        return .each name array (← body fuel)
      | _ => do
        let first ← if ← isNext ";" then pure none else some <$> simple fuel
        expect ";"
        skipNewlines
        let test ← if ← isNext ";" then pure none else some <$> expr {} fuel
        expect ";"
        skipNewlines
        let step ← if ← isNext ")" then pure none else some <$> simple fuel
        expect ")"
        return .loop first test step (← body fuel)
    | some (.word "break") => do
      advance
      finish .leave
    | some (.word "continue") => do
      advance
      finish .goOn
    | some (.word "next") => do
      advance
      finish .next
    | some (.word "nextfile") => do
      advance
      finish .nextFile
    | some (.word "exit") => do
      advance
      finish (.exit (← value? fuel))
    | some (.word "return") => do
      advance
      finish (.result (← value? fuel))
    | _ => do finish (← simple fuel)

/-- An expression, unless the statement ends here. -/
def value? : (fuel : Nat) → Read (Option Expr)
  | 0 => unexpected
  | fuel + 1 => do
    match ← peek? with
    | none | some .newline | some (.sym ";") | some (.sym "\x7d") => return none
    | _ => some <$> expr {} fuel

/-- Statements up to the closing brace. -/
def statements : (fuel : Nat) → Read (List Stmt)
  | 0 => unexpected
  | fuel + 1 => do
    skipSeparators
    if ← accept "\x7d" then return []
    else
      let first ← statement fuel
      return first :: (← statements fuel)

end

def block (fuel : Nat) : Read Stmt := do
  if ← accept "\x7b" then return .block (← statements fuel) else unexpected

/-- The names of parameters up to the closing parenthesis. -/
def params : (fuel : Nat) → Read (List Octets)
  | 0 => unexpected
  | fuel + 1 => do
    match ← peek? with
    | some (.sym ")") => do
      advance
      return []
    | some (.name s) => do
      advance
      let _ ← accept ","
      skipNewlines
      return s :: (← params fuel)
    | _ => unexpected

/-- Reads the parts of a program. -/
def parts : (fuel : Nat) → Program → Read Program
  | 0, p => return p
  | fuel + 1, p => do
    skipSeparators
    match ← peek? with
    | none => return p
    | some (.word "BEGIN") => do
      advance
      let b ← block fuel
      parts fuel { p with start := p.start ++ [b] }
    | some (.word "END") => do
      advance
      let b ← block fuel
      parts fuel { p with finish := p.finish ++ [b] }
    | some (.word "function") => do
      advance
      let name ← match ← peek? with
        | some (.name s) | some (.function s) => pure s
        | _ => unexpected
      advance
      expect "("
      let names ← params fuel
      skipNewlines
      let b ← block fuel
      parts fuel { p with functions := p.functions ++ [⟨name, names, b⟩] }
    | some (.sym "\x7b") => do
      let b ← block fuel
      parts fuel { p with rules := p.rules ++ [⟨.always, some b⟩] }
    | _ => do
      let first ← expr {} fuel
      let pattern ← if ← accept "," then do
          skipNewlines
          pure (Pattern.range first (← expr {} fuel))
        else pure (Pattern.test first)
      if ← isNext "\x7b" then
        let b ← block fuel
        parts fuel { p with rules := p.rules ++ [⟨pattern, some b⟩] }
      else
        match ← peek? with
        | none | some .newline | some (.sym ";") => pure ()
        | _ => unexpected
        parts fuel { p with rules := p.rules ++ [⟨pattern, none⟩] }

/-- The program that a text is. -/
def Program.ofText (s : Octets) : Except Wrong Program := do
  let spots ← scan (s.length + 1) 1 [] s
  let size := 40 * spots.length + 100
  let (program, rest) ← (parts size {}).run { spots := spots }
  let missing := rest.calls.reverse.find? fun (name, _) => !program.functions.any (·.name == name)
  match missing with
  | some (name, line) => throw ⟨line + 1, ("function " : Text) ++ name ++ (" never defined" : Text), false⟩
  | none => return program

end CompileFail.Utility.Awk
