import CompileFail.Text.Octets

/-! Regular expressions and how they are written. Two grammars are in use, which differ in what has to
have a backslash in front: the basic one and the extended one. -/

namespace CompileFail.Regex

/-- A place between two characters. -/
inductive Anchor where
  | start
  | finish
  | wordStart
  | wordFinish
  | wordEdge
  | noWordEdge
deriving DecidableEq, Repr

inductive Node where
  | empty
  | oneOf (negated : Bool) (ranges : List (Char × Char))
  | anchor (anchor : Anchor)
  | sequence (first second : Node)
  | either (first second : Node)
  /-- So many times at least, and at most if there is a limit. -/
  | times (least : Nat) (most : Option Nat) (body : Node)
  | group (number : Nat) (body : Node)
  /-- What a group has matched. -/
  | again (number : Nat)
deriving Repr

instance : Inhabited Node := ⟨.empty⟩

namespace Node

def char (c : Char) : Node := .oneOf false [(c, c)]

/-- Any character; a character that is no byte cannot come up. -/
def any : Node := .oneOf true []

end Node

inductive Grammar where
  | basic
  | extended
deriving DecidableEq, Repr

/-- The ranges of the named classes in brackets. -/
def classRanges? (name : Text) : Option (List (Char × Char)) :=
  match String.ofList name with
  | "alpha" => some [('A', 'Z'), ('a', 'z')]
  | "digit" => some [('0', '9')]
  | "alnum" => some [('0', '9'), ('A', 'Z'), ('a', 'z')]
  | "upper" => some [('A', 'Z')]
  | "lower" => some [('a', 'z')]
  | "space" => some [('\t', '\r'), (' ', ' ')]
  | "blank" => some [('\t', '\t'), (' ', ' ')]
  | "punct" => some [('!', '/'), (':', '@'), ('[', '`'), ('\x7b', '~')]
  | "print" => some [(' ', '~')]
  | "graph" => some [('!', '~')]
  | "cntrl" => some [('\x00', '\x1f'), ('\x7f', '\x7f')]
  | "xdigit" => some [('0', '9'), ('A', 'F'), ('a', 'f')]
  | _ => none

/-- The characters of words. -/
def wordRanges : List (Char × Char) := [('0', '9'), ('A', 'Z'), ('_', '_'), ('a', 'z')]

def isWordChar (c : Char) : Bool := c.isAlphanum || c == '_'

/-- What is odd about an expression. -/
inductive Remark where
  /-- There is nothing in front of an operator that it could repeat. -/
  | atStart (operator : Text)
  /-- The name of a class stands in brackets of its own. -/
  | bareClass
deriving DecidableEq, Repr

structure Parser where
  grammar : Grammar
  /-- What cannot be an operator where it stands is an offence. -/
  strict : Bool
  rest : Text
  remarks : List Remark := []
  /-- How many groups have been opened. -/
  groups : Nat := 0
  /-- How many of them are open. -/
  depth : Nat := 0

abbrev Parse (α : Type) := StateT Parser (Except Text) α

namespace Parse

def fail {α : Type} (message : Text) : Parse α := throw message

def unmatchedBracket : Text := "Unmatched [, [^, [:, [., or [="

def setRest (rest : Text) : Parse Unit := modify ({ · with rest := rest })

/-- The member of a bracket at the front of a text: a class or a character, and what follows. -/
def bracketItem (s : Text) : Except Text ((List (Char × Char) ⊕ Char) × Text) :=
  match s with
  | '[' :: ':' :: s =>
    let name := s.takeWhile (· != ':')
    match s.drop name.length with
    | ':' :: ']' :: rest =>
      match classRanges? name with
      | some ranges => .ok (.inl ranges, rest)
      | none => .error "Invalid character class name"
    | _ => .error unmatchedBracket
  | '[' :: mark :: c :: more =>
    if mark = '.' ∨ mark = '=' then
      match named mark more with
      | some ([], rest) => .ok (.inr c, rest)
      | some _ => .error "Invalid collation character"
      | none => .error unmatchedBracket
    else .ok (.inr '[', mark :: c :: more)
  | c :: rest => .ok (.inr c, rest)
  | [] => .error unmatchedBracket
where
  /-- What stands up to a mark and a closing bracket, and what follows. -/
  named (mark : Char) : Text → Option (Text × Text)
    | [] => none
    | c :: s =>
      if c = mark ∧ s.head? = some ']' then some ([], s.drop 1)
      else (named mark s).map fun (name, rest) => (c :: name, rest)

/-- The members of a bracket up to its end; `fuel` is at least the length of the text. -/
def bracketItems : (fuel : Nat) → (first : Bool) → Text → Except Text (List (Char × Char) × Text)
  | 0, _, _ => .error unmatchedBracket
  | fuel + 1, first, s =>
    match s with
    | [] => .error (if first then "Invalid regular expression" else unmatchedBracket)
    | ']' :: rest =>
      if first then more fuel s else .ok ([], rest)
    | _ => more fuel s
where
  /-- One member and those behind it. -/
  more (fuel : Nat) (s : Text) : Except Text (List (Char × Char) × Text) := do
    match ← bracketItem s with
    | (.inl ranges, rest) => do
      let (others, rest) ← bracketItems fuel false rest
      return (ranges ++ others, rest)
    | (.inr c, '-' :: d :: rest) =>
      if d = ']' then do
        let (others, rest) ← bracketItems fuel false ('-' :: d :: rest)
        return ((c, c) :: others, rest)
      else match ← bracketItem (d :: rest) with
        | (.inr high, rest) =>
          if high < c then .error "Invalid range end"
          else do
            let (others, rest) ← bracketItems fuel false rest
            return ((c, high) :: others, rest)
        | (.inl _, _) => .error "Invalid range end"
    | (.inr c, rest) => do
      let (others, rest) ← bracketItems fuel false rest
      return ((c, c) :: others, rest)

/-- Whether the members of a bracket are meant to be the name of a class. -/
def isBareClass (s : Text) : Bool :=
  let inner := s.takeWhile (· != ']')
  inner.head? = some ':' && inner.getLast? = some ':' && inner.any (· != ':') &&
    !inner.any (fun c => c == '[' || c == '-')

def remark (r : Remark) : Parse Unit := modify fun p => { p with remarks := p.remarks ++ [r] }

/-- A bracket of which the opening has been read. -/
def bracket : Parse Node := do
  let s := (← get).rest
  let (negated, s) := match s with
    | '^' :: s => (true, s)
    | s => (false, s)
  if isBareClass s then remark .bareClass
  match bracketItems (s.length + 1) true s with
  | .error message => fail message
  | .ok (ranges, rest) => do
    setRest rest
    return .oneOf negated ranges

/-- The largest number of repetitions that may be asked for. -/
def repetitionLimit : Nat := 32767

/-- A number in braces as far as it has been read. -/
inductive Count where
  | missing
  | bad
  | value (n : Nat)

/-- Reads a number in braces: answers with it, with whether a comma or the closing brace stands behind
it, which is `none` at the end of the text, and with what follows. -/
def count (grammar : Grammar) : Count → Text → Count × Option Char × Text
  | _, [] => (.bad, none, [])
  | n, c :: s =>
    if grammar = .basic ∧ c = '\\' ∧ s.head? = some '\x7d' then (n, some '\x7d', s.drop 1)
    else if grammar = .extended ∧ c = '\x7d' then (n, some '\x7d', s)
    else if c = ',' then (n, some ',', s)
    else
      let digit := c.toNat - '0'.toNat
      count grammar (match n with
        | .missing => if c.isDigit then .value digit else .bad
        | .value m => if c.isDigit then .value (10 * m + digit) else .bad
        | .bad => .bad) s

/-- What stands in braces behind an atom. -/
inductive Interval where
  | times (least : Nat) (most : Option Nat) (rest : Text)
  /-- It is no such thing, and the brace stands for itself. -/
  | ordinary
  | invalid (message : Text)

def invalidContent : Text := "Invalid content of \\\x7b\\\x7d"

/-- Reads what stands behind an opening brace. -/
def interval (p : Parser) (s : Text) : Interval :=
  let broken (stop : Option Char) : Interval :=
    if p.grammar = .extended ∧ !p.strict then .ordinary
    else .invalid (if stop.isNone then "Unmatched \\\x7b" else invalidContent)
  let closed (least : Nat) (most : Option Nat) (stop : Option Char) (rest : Text) : Interval :=
    if stop ≠ some '\x7d' || most.any (· < least) then .invalid invalidContent
    else if most.getD least > repetitionLimit then .invalid "Regular expression too big"
    else .times least most rest
  match count p.grammar .missing s with
  | (.value n, some ',', rest) => upper broken closed n rest
  | (.missing, some ',', rest) => upper broken closed 0 rest
  | (.value n, stop, rest) => closed n (some n) stop rest
  | (.missing, _, _) => .invalid invalidContent
  | (.bad, stop, _) => broken stop
where
  /-- Reads what stands behind the comma. -/
  upper (broken : Option Char → Interval)
      (closed : Nat → Option Nat → Option Char → Text → Interval) (least : Nat) (s : Text) :
      Interval :=
    match count p.grammar .missing s with
    | (.value n, stop, rest) => closed least (some n) stop rest
    | (.missing, stop, rest) => closed least none stop rest
    | (.bad, stop, _) => broken stop

/-- What the text behind a backslash stands for where both grammars agree. -/
def escape? : Char → Option Node
  | 'w' => some (.oneOf false wordRanges)
  | 'W' => some (.oneOf true wordRanges)
  | 's' => some (.oneOf false [('\t', '\r'), (' ', ' ')])
  | 'S' => some (.oneOf true [('\t', '\r'), (' ', ' ')])
  | 'b' => some (.anchor .wordEdge)
  | 'B' => some (.anchor .noWordEdge)
  | '<' => some (.anchor .wordStart)
  | '>' => some (.anchor .wordFinish)
  | '`' => some (.anchor .start)
  | '\'' => some (.anchor .finish)
  | _ => none

/-- Whether the expression ends where a dollar sign has been read, so that it is an anchor. -/
def endsHere (grammar : Grammar) (s : Text) : Bool :=
  match grammar, s with
  | .extended, _ => true
  | .basic, [] => true
  | .basic, '\\' :: c :: _ => c == ')' || c == '|'
  | .basic, _ => false

/-- The operator at the front of what is left that repeats an atom. -/
def repeated (p : Parser) : Interval :=
  match p.grammar, p.rest with
  | _, '*' :: rest => .times 0 none rest
  | .extended, '+' :: rest => .times 1 none rest
  | .extended, '?' :: rest => .times 0 (some 1) rest
  | .extended, '\x7b' :: rest => interval p rest
  | .basic, '\\' :: '+' :: rest => .times 1 none rest
  | .basic, '\\' :: '?' :: rest => .times 0 (some 1) rest
  | .basic, '\\' :: '\x7b' :: rest => interval p rest
  | _, _ => .ordinary

def misplaced : Text := "Invalid preceding regular expression"

/-- An atom with the operators that repeat it; `fuel` is at least the length of the text. -/
def repetitions : (fuel : Nat) → Node → Parse Node
  | 0, node => return node
  | fuel + 1, node => do
    match repeated (← get) with
    | .times least most rest => do
      setRest rest
      match (← get).grammar, (← get).strict, rest with
      | .basic, true, '*' :: _ | .basic, true, '\\' :: '\x7b' :: _ => fail misplaced
      | _, _, _ => repetitions fuel (.times least most node)
    | .invalid message => fail message
    | .ordinary => return node

/-- Where an atom stands. -/
inductive Standing where
  | first
  /-- Behind a caret that stands first. -/
  | behindCaret
  | later
deriving DecidableEq

mutual

/-- Alternatives up to the end of the text or of a group. -/
def choices : (fuel : Nat) → Parse Node
  | 0 => return .empty
  | fuel + 1 => do
    let first ← branch fuel .first
    let p ← get
    match p.grammar, p.rest with
    | .extended, '|' :: rest | .basic, '\\' :: '|' :: rest => do
      setRest rest
      return .either first (← choices fuel)
    | _, _ => return first

/-- Atoms one after another. -/
def branch : (fuel : Nat) → Standing → Parse Node
  | 0, _ => return .empty
  | fuel + 1, standing => do
    let p ← get
    let start := standing ≠ .later
    let goOn (node : Node) : Parse Node := do
      let node ← repetitions (p.rest.length + 1) node
      match ← branch fuel .later with
      | .empty => return node
      | others => return .sequence node others
    let anchored (node : Node) (next : Standing) : Parse Node := do
      match ← branch fuel next with
      | .empty => return node
      | others => return .sequence node others
    match p.grammar, p.rest with
    | _, [] => return .empty
    | .extended, '|' :: _ => return .empty
    | .extended, ')' :: rest =>
      if p.depth > 0 then return .empty
      else if p.strict then fail "Unmatched ) or \\)"
      else do
        setRest rest
        goOn (.char ')')
    | .extended, '(' :: rest => do
      let node ← group fuel rest
      goOn node
    | .basic, '\\' :: '(' :: rest => do
      let node ← group fuel rest
      goOn node
    | .basic, '\\' :: '\x7b' :: rest =>
      if start ∧ !p.strict then do
        setRest rest
        goOn (.char '\x7b')
      else fail misplaced
    | .basic, '\\' :: ')' :: _ =>
      if p.depth > 0 then return .empty else fail "Unmatched ) or \\)"
    | .basic, '\\' :: '|' :: _ => return .empty
    | .basic, '*' :: rest =>
      if start then do
        setRest rest
        goOn (.char '*')
      else fail misplaced
    | .extended, c :: rest =>
      if start ∧ (c = '*' ∨ c = '+' ∨ c = '?' ∨ c = '\x7b') then
        if p.strict then fail misplaced
        else match repeated p with
          | .times _ _ rest => do
            setRest rest
            remark (.atStart (if c = '\x7b' then "\x7b...\x7d" else [c]))
            anchored .empty .first
          | .invalid message => fail message
          | .ordinary => do
            setRest rest
            goOn (.char c)
      else ordinary p standing goOn anchored c rest
    | .basic, c :: rest => ordinary p standing goOn anchored c rest

/-- A group, of which the opening has been read. -/
def group : (fuel : Nat) → Text → Parse Node
  | 0, _ => return .empty
  | fuel + 1, rest => do
    modify fun p => { p with rest := rest, groups := p.groups + 1, depth := p.depth + 1 }
    let number := (← get).groups
    let body ← choices fuel
    modify fun p => { p with depth := p.depth - 1 }
    let p ← get
    match p.grammar, p.rest with
    | .extended, ')' :: rest | .basic, '\\' :: ')' :: rest => do
      setRest rest
      return .group number body
    | _, _ => fail "Unmatched ( or \\("

/-- An atom that both grammars write alike. -/
def ordinary (p : Parser) (standing : Standing) (goOn : Node → Parse Node)
    (anchored : Node → Standing → Parse Node) (c : Char) (rest : Text) : Parse Node := do
  match c with
  | '.' => do
    setRest rest
    goOn .any
  | '[' => do
    setRest rest
    let node ← bracket
    goOn node
  | '^' => do
    setRest rest
    match p.grammar with
    | .basic => if standing = .first then anchored (.anchor .start) .behindCaret else goOn (.char '^')
    | .extended =>
      if p.strict then anchored (.anchor .start) .first
      else
        match (repeated (← get)), rest with
        | .times .., c :: _ => remark (.atStart (if c = '\x7b' then "\x7b...\x7d" else [c]))
        | _, _ => pure ()
        goOn (.anchor .start)
  | '$' => do
    setRest rest
    if endsHere p.grammar rest then
      if p.grammar = .extended ∧ !p.strict then goOn (.anchor .finish)
      else anchored (.anchor .finish) (if p.grammar = .extended then .first else .later)
    else goOn (.char '$')
  | '\\' => do
    match rest with
    | [] => fail "Trailing backslash"
    | d :: rest => do
      setRest rest
      if '1' ≤ d ∧ d ≤ '9' then
        let number := d.toNat - '0'.toNat
        if number > (← get).groups then fail "Invalid back reference"
        else goOn (.again number)
      else goOn ((escape? d).getD (.char (if d = 'n' then '\n' else d)))
  | c => do
    setRest rest
    goOn (.char c)

end

/-- Reads a whole expression; answers also with the number of its groups and with what is odd. -/
def whole (grammar : Grammar) (strict : Bool) (s : Text) :
    Except Text (Node × Nat × List Remark) := do
  let start : Parser := { grammar := grammar, strict := strict, rest := s }
  let (node, p) ← (choices (4 * s.length + 8)).run start
  match p.rest with
  | [] => .ok (node, p.groups, p.remarks)
  | _ => .error "Unmatched ) or \\)"

end Parse

end CompileFail.Regex
