import CompileFail.Regex.Search
import CompileFail.Text.Octets

/-! Programs for the stream editor: commands with the addresses of the lines that they are for. -/

namespace CompileFail.Utility.Sed

/-- A way to tell a line. -/
inductive Address where
  | line (n : Nat)
  | every (first step : Nat)
  | last
  /-- The line fits an expression, or the one that was used last if there is none. -/
  | fits (regex : Option Regex)

/-- Where a range of lines ends. -/
inductive Bound where
  | at (address : Address)
  /-- So many lines behind the first one. -/
  | more (n : Nat)
  /-- The next line with a number that is a multiple. -/
  | multiple (n : Nat)

/-- A change of case in what is put in. -/
inductive Casing where
  | upper
  | lower
  | nextUpper
  | nextLower
  | none
deriving DecidableEq

/-- A part of what is put in place of a find. -/
inductive Piece where
  | text (s : Octets)
  | group (n : Nat)
  | casing (c : Casing)

structure Substitution where
  regex : Option Regex
  pieces : List Piece
  first : Nat := 1
  every : Bool := false
  prints : Bool := false
  file : Option Octets := none

inductive Action where
  | comment
  /-- A block, with the number of the command behind it. -/
  | block (after : Nat)
  | exchange (s : Substitution)
  | map (table : List (Char × Char))
  | append (text : Octets)
  | insert (text : Octets)
  | change (text : Octets)
  | readFile (name : Octets)
  | readLine (name : Octets)
  | writeFile (name : Octets) (firstLine : Bool)
  /-- Goes on at a label, or at the end; `when` says whether a change is asked for. -/
  | jump (label : Octets) (when : Option Bool)
  | quit (code : Nat) (quiet : Bool)
  /-- Shows the pattern space unambiguously, in lines of at most so many characters. -/
  | list (width : Option Nat)
  /-- A command that is a letter and nothing else. -/
  | letter (c : Char)

structure Command where
  first : Option Address := none
  second : Option Bound := none
  /-- The range may end on the first line. -/
  fromZero : Bool := false
  negated : Bool := false
  action : Action

structure Program where
  commands : Array Command
  /-- The labels with the numbers of the commands that they stand in front of. -/
  labels : List (Octets × Nat)
  /-- Where lines that are shown unambiguously are broken. -/
  width : Nat := 70

/-! Reading programs. -/

/-- What is left of a program, and how much of it has been read. -/
structure Source where
  rest : Octets
  pos : Nat := 0
  extended : Bool
  commands : List Command := []
  labels : List (Octets × Nat) := []
  /-- The numbers of the blocks that are open. -/
  opened : List Nat := []

/-- Where something was found to be wrong. -/
inductive Spot where
  | at (pos : Nat)
  /-- In the program as a whole. -/
  | whole
  /-- In an expression, whatever program it stands in. -/
  | expression

structure Wrong where
  message : Octets
  spot : Spot

abbrev Read := StateT Source (Except Wrong)

def fail {α : Type} (message : Octets) : Read α := do
  throw ⟨message, .at (← get).pos⟩

/-- The next character, which is taken. -/
def next? : Read (Option Char) := do
  match (← get).rest with
  | [] => return none
  | c :: rest => do
    modify fun s => { s with rest := rest, pos := s.pos + 1 }
    return some c

def peek? : Read (Option Char) := return (← get).rest.head?

def takeWhile (p : Char → Bool) : Read Octets := do
  let s ← get
  let taken := s.rest.takeWhile p
  set { s with rest := s.rest.drop taken.length, pos := s.pos + taken.length }
  return taken

def isBlank (c : Char) : Bool := c == ' ' || c == '\t'

def skipBlanks : Read Unit := do
  let _ ← takeWhile isBlank

/-- Where a delimiter is looked for: in brackets it does not count. -/
inductive Zone where
  | plain
  /-- Behind a backslash. -/
  | escaped
  /-- Right behind the opening of a bracket. -/
  | opening
  /-- Behind the caret that opens a bracket. -/
  | caret
  /-- In a bracket; `inner` says whether another opening stands in front. -/
  | bracket (inner : Bool)
  | bracketEscaped
  /-- In a class that a mark closes; `closing` says whether it has been seen. -/
  | named (mark : Char) (closing : Bool)
deriving DecidableEq

/-- What is kept of a character, and the zone behind it. -/
def Zone.step (delimiter : Char) (isRegex : Bool) (c : Char) : Zone → Octets × Zone
  | plain =>
    if c = '\\' then ([], escaped) else ([c], if c = '[' ∧ isRegex then opening else plain)
  | escaped =>
    let kept : Octets :=
      if c = delimiter ∧ (isRegex ∨ c ≠ '&') then [c]
      else if c = 'n' ∧ isRegex then ['\n'] else ['\\', c]
    (kept, plain)
  | named mark closing =>
    ([c], if closing ∧ c = ']' then bracket false else named mark (c == mark))
  | bracketEscaped =>
    if c = 'n' then (['\n'], bracket false)
    else if c = '\\' then (['\\'], bracketEscaped)
    else (['\\', c], if c = ']' then plain else bracket (c == '['))
  | opening =>
    if c = '^' then ([c], caret) else if c = ']' then ([c], bracket false)
    else inBracket false
  | caret => if c = ']' then ([c], bracket false) else inBracket false
  | bracket inner => inBracket inner
where
  inBracket (inner : Bool) : Octets × Zone :=
    if c = ']' then ([c], .plain)
    else if c = '\\' then ([], .bracketEscaped)
    else if inner ∧ (c = ':' ∨ c = '.' ∨ c = '=') then ([c], .named c false)
    else ([c], .bracket (c == '['))

/-- What stands up to a delimiter, which is taken with it. A backslash keeps the delimiter from being
one. Without a delimiter the answer is what cannot be read: the end of a line, or nothing at all. -/
def delimited (delimiter : Char) (isRegex : Bool) :
    Zone → Octets → Except Octets (Octets × Octets)
  | _, [] => .error []
  | zone, c :: s =>
    if zone = .plain ∧ c = delimiter then .ok ([], s)
    else if c = '\n' ∧ isRegex ∧ zone ≠ .escaped then .error (c :: s)
    else
      let (kept, zone) := zone.step delimiter isRegex c
      (delimited delimiter isRegex zone s).map fun (front, rest) => (kept ++ front, rest)

def readDelimited (delimiter : Char) (isRegex : Bool) (problem : String) : Read Octets := do
  let s ← get
  match delimited delimiter isRegex .plain s.rest with
  | .ok (front, rest) => do
    set { s with rest := rest, pos := s.pos + (s.rest.length - rest.length) }
    return front
  | .error rest => do
    set { s with rest := rest, pos := s.pos + (s.rest.length - rest.length) }
    fail problem.toList

/-- What a text with backslashes is for. -/
inductive Usage where
  | replacement
  | other
deriving DecidableEq

/-- A character that is given by its number. In a replacement it stands for itself. -/
def Usage.spelled (usage : Usage) (c : Char) : Octets :=
  if usage = .replacement ∧ (c = '&' ∨ c = '\\') then ['\\', c] else [c]

/-- Characters that are written with a backslash and a letter. -/
def unescaped (usage : Usage) : Octets → Octets
  | '\\' :: 't' :: s => '\t' :: unescaped usage s
  | '\\' :: 'f' :: s => '\x0c' :: unescaped usage s
  | '\\' :: 'v' :: s => '\x0b' :: unescaped usage s
  | '\\' :: 'a' :: s => '\x07' :: unescaped usage s
  | '\\' :: 'r' :: s => '\r' :: unescaped usage s
  | '\\' :: 'c' :: c :: s =>
    usage.spelled (Char.ofNat (c.toUpper.toNat ^^^ 64)) ++ unescaped usage s
  | '\\' :: c :: s =>
    match numbered? c s with
    | some (d, size) =>
      usage.spelled d ++ (unescaped usage s).drop size
    | none => '\\' :: c :: unescaped usage s
  | c :: s => c :: unescaped usage s
  | [] => []
where
  /-- The character whose number stands behind a letter, and how many digits that has. -/
  numbered? (letter : Char) (s : Octets) : Option (Char × Nat) :=
    let read (base most : Nat) : Option (Char × Nat) :=
      let (n, rest) := Text.leadingDigits base most s
      if rest.length = s.length then none
      else some (Char.ofNat (n % 256), s.length - rest.length)
    match letter with
    | 'x' => read 16 2
    | 'd' => read 10 3
    | 'o' => read 8 3
    | _ => none

/-- The expression that a text is; the empty text stands for the one used last. -/
def regexOf (text : Octets) (ignoresCase : Bool) : Read (Option Regex) := do
  if text.isEmpty then return none
  let grammar := if (← get).extended then Regex.Grammar.extended else .basic
  match Regex.ofText grammar true ignoresCase (unescaped .other text) with
  | .ok r =>
    if r.remarks.contains .bareClass then
      throw ⟨"character class syntax is [[:space:]], not [:space:]", .expression⟩
    else return some r
  | .error e => fail e

def number : Read Nat := do
  let digits ← takeWhile Char.isDigit
  return (Text.toNat? digits).getD 0

/-- An address, if there is one. -/
def address? : Read (Option Address) := do
  match ← peek? with
  | some '$' => do
    let _ ← next?
    return some .last
  | some '/' => do
    let _ ← next?
    some <$> regexAddress '/'
  | some '\\' => do
    let _ ← next?
    match ← next? with
    | some c => some <$> regexAddress c
    | none => fail "unexpected `,'"
  | some c =>
    if c.isDigit then do
      let n ← number
      if (← peek?) == some '~' then do
        let _ ← next?
        return some (.every n (← number))
      else return some (.line n)
    else return none
  | none => return none
where
  regexAddress (delimiter : Char) : Read Address := do
    let text ← readDelimited delimiter true "unterminated address regex"
    let flags ← takeWhile fun c => c == 'I' || c == 'M'
    return .fits (← regexOf text (flags.any (· == 'I')))

/-- What closes a command: a semicolon, the end of the line, or what stands behind it. -/
def finish : Read Unit := do
  skipBlanks
  match ← peek? with
  | none | some '\x7d' | some '#' => return
  | some c => do
    let _ ← next?
    if c = '\n' ∨ c = ';' then return
    else if c = '\r' then return
    else fail "extra characters after command"

/-- A name up to the end of the line. -/
def fileName : Read Octets := do
  skipBlanks
  let name ← takeWhile (· != '\n')
  if name.isEmpty then fail "missing filename in r/R/w/W commands"
  let _ ← next?
  return name

/-- Lines of text up to one that does not end with a backslash. -/
def textLines : (fuel : Nat) → Read Octets
  | 0 => return []
  | fuel + 1 => do
    match ← next? with
    | none | some '\n' => return ['\n']
    | some '\\' => do
      match ← next? with
      | none => return ['\n']
      | some c => return c :: (← textLines fuel)
    | some c => return c :: (← textLines fuel)

/-- The text of a command that brings some. -/
def textOf : Read Octets := do
  skipBlanks
  match ← peek? with
  | none => fail "expected \\ after `a', `c' or `i'"
  | some '\\' => do
    let _ ← next?
    let blanks ← takeWhile isBlank
    match ← peek? with
    | none => return []
    | some '\n' => do
      let _ ← next?
      body []
    | some _ => body blanks
  | some _ => body []
where
  body (lead : Octets) : Read Octets := do
    let s ← get
    set { s with rest := unescaped .other s.rest }
    let text ← textLines (s.rest.length + 1)
    return lead ++ text

/-- The parts of what is put in place of a find. -/
def pieces : Octets → List Piece
  | '\\' :: c :: s =>
    (if c.isDigit then .group (c.toNat - '0'.toNat)
      else match c with
        | 'n' => .text ['\n']
        | 'U' => .casing .upper
        | 'L' => .casing .lower
        | 'u' => .casing .nextUpper
        | 'l' => .casing .nextLower
        | 'E' => .casing .none
        | c => .text [c]) :: pieces s
  | '&' :: s => .group 0 :: pieces s
  | c :: s => .text [c] :: pieces s
  | [] => []

/-- The flags behind an exchange. -/
def flags : (fuel : Nat) → Substitution → (ignoresCase : Bool) → (numbered : Bool) →
    Read (Substitution × Bool)
  | 0, s, ignoresCase, _ => return (s, ignoresCase)
  | fuel + 1, s, ignoresCase, numbered => do
    match ← peek? with
    | none | some '\x7d' | some '#' => return (s, ignoresCase)
    | some c => do
      if c.isDigit && c != '0' then do
        if numbered then
          let _ ← next?
          fail "multiple number options to `s' command"
        let n ← number
        flags fuel { s with first := n } ignoresCase true
      else do
        let _ ← next?
        match c with
        | 'g' =>
          if s.every then fail "multiple `g' options to `s' command"
          else flags fuel { s with every := true } ignoresCase numbered
        | 'p' =>
          if s.prints then fail "multiple `p' options to `s' command"
          else flags fuel { s with prints := true } ignoresCase numbered
        | 'i' | 'I' => flags fuel s true numbered
        | 'm' | 'M' | 'e' => flags fuel s ignoresCase numbered
        | 'w' => do
          let name ← fileName
          return ({ s with file := some name }, ignoresCase)
        | '0' => fail "number option to `s' command may not be zero"
        | '\n' | ';' => return (s, ignoresCase)
        | ' ' | '\t' | '\r' => flags fuel s ignoresCase numbered
        | _ => fail "unknown option to `s'"

def substitution : Read Action := do
  match ← next? with
  | none => fail "unterminated `s' command"
  | some delimiter => do
    let old ← readDelimited delimiter true "unterminated `s' command"
    let new ← readDelimited delimiter false "unterminated `s' command"
    let parts := pieces (unescaped .replacement new)
    let (s, ignoresCase) ← flags ((← get).rest.length + 1) { regex := none, pieces := parts } false false
    let regex ← regexOf old ignoresCase
    let most := (parts.map fun
      | .group n => n
      | _ => 0).foldl max 0
    match regex with
    | some r =>
      if most > r.groups then
        fail (("invalid reference \\" : Text) ++ Text.ofNat most ++ (" on `s' command's RHS" : Text))
    | none => pure ()
    return .exchange { s with regex := regex }

/-- The characters of a list in which backslashes may stand. -/
def plainChars : Octets → Octets
  | '\\' :: 'n' :: s => '\n' :: plainChars s
  | '\\' :: '\\' :: s => '\\' :: plainChars s
  | c :: s => c :: plainChars s
  | [] => []

def mapping : Read Action := do
  match ← next? with
  | none => fail "unterminated `y' command"
  | some delimiter => do
    let old ← readDelimited delimiter false "unterminated `y' command"
    let new ← readDelimited delimiter false "unterminated `y' command"
    let old := plainChars (unescaped .other old)
    let new := plainChars (unescaped .other new)
    if old.length != new.length then fail "strings for `y' command are different lengths"
    finish
    return .map (old.zip new)

def label : Read Octets := do
  skipBlanks
  let name ← takeWhile fun c => !isBlank c && c != '\n' && c != ';' && c != '\x7d'
  return name

/-- The action of a command by its letter; `addresses` is the number of addresses in front. -/
def actionOf (c : Char) (addresses : Nat) : Read Action := do
  let alone (action : Action) : Read Action := do
    finish
    return action
  match c with
  | 's' => substitution
  | 'y' => mapping
  | 'a' => return .append (← textOf)
  | 'i' => return .insert (← textOf)
  | 'c' => return .change (← textOf)
  | 'r' => return .readFile (← fileName)
  | 'R' => return .readLine (← fileName)
  | 'w' => return .writeFile (← fileName) false
  | 'W' => return .writeFile (← fileName) true
  | 'b' => do alone (.jump (← label) none)
  | 't' => do alone (.jump (← label) (some true))
  | 'T' => do alone (.jump (← label) (some false))
  | 'q' | 'Q' => do
    if addresses > 1 then fail "command only uses one address"
    skipBlanks
    let n ← number
    alone (.quit n (c == 'Q'))
  | 'l' => do
    skipBlanks
    let digits ← takeWhile Char.isDigit
    alone (.list (Text.toNat? digits))
  | 'v' => do
    let _ ← takeWhile fun c => c != '\n' && c != ';'
    alone .comment
  | '=' | 'd' | 'D' | 'h' | 'H' | 'g' | 'G' | 'n' | 'N' | 'p' | 'P' | 'x' | 'z' | 'F' | 'e' =>
    alone (.letter c)
  | _ => fail (("unknown command: `" : Text) ++ [c, '\''])

/-- The addresses in front of a command. -/
def addresses : Read Command := do
  let first ← address?
  let bare : Command := { first := first, action := .comment }
  skipBlanks
  if first.isSome && (← peek?) == some ',' then do
    let _ ← next?
    skipBlanks
    let second : Option Bound ← match ← peek? with
      | some '+' => do
        let _ ← next?
        pure (some (.more (← number)))
      | some '~' => do
        let _ ← next?
        pure (some (.multiple (← number)))
      | _ => do
        pure ((← address?).map .at)
    match second with
    | none => do
      let _ ← next?
      fail "unexpected `,'"
    | some bound => do
      let isRegex := match bound with
        | .at (.fits _) => true
        | _ => false
      match first with
      | some (.line 0) =>
        if isRegex then return { bare with second := some bound, fromZero := true }
        else do
          skipBlanks
          let _ ← next?
          fail "invalid usage of line address 0"
      | _ => return { bare with second := some bound }
  else
    match first with
    | some (.line 0) => do
      skipBlanks
      let _ ← next?
      fail "invalid usage of line address 0"
    | _ => return bare

/-- Reads commands up to the end; `fuel` is more than the length of the program. -/
def readCommands : (fuel : Nat) → Read Unit
  | 0 => return
  | fuel + 1 => do
    let _ ← takeWhile fun c => isBlank c || c == '\n' || c == ';' || c == '\r'
    if (← peek?).isNone then return
    let command ← addresses
    skipBlanks
    let negated := (← peek?) == some '!'
    if negated then do
      let _ ← next?
      skipBlanks
      if (← peek?) == some '!' then do
        let _ ← next?
        fail "multiple `!'s"
    let command := { command with negated := negated }
    let count := (if command.first.isSome then 1 else 0) + if command.second.isSome then 1 else 0
    match ← next? with
    | none => fail "missing command"
    | some '#' => do
      if count > 0 then fail "comments don't accept any addresses"
      let _ ← takeWhile (· != '\n')
      readCommands fuel
    | some ':' => do
      if count > 0 then fail ": doesn't want any addresses"
      let name ← label
      if name.isEmpty then fail "\":\" lacks a label"
      modify fun s => { s with labels := (name, s.commands.length) :: s.labels }
      readCommands fuel
    | some '\x7b' => do
      modify fun s => { s with
        opened := s.commands.length :: s.opened
        commands := { command with action := .block 0 } :: s.commands }
      readCommands fuel
    | some '\x7d' => do
      if count > 0 then fail "\x7d doesn't want any addresses"
      let s ← get
      match s.opened with
      | [] => fail "unexpected `\x7d'"
      | start :: opened => do
        let size := s.commands.length
        let closed := s.commands.zipIdx.map fun (command, i) =>
          if size - 1 - i = start then { command with action := .block size } else command
        set { s with opened := opened, commands := closed }
        finish
        readCommands fuel
    | some c => do
      let action ← actionOf c count
      modify fun s => { s with commands := { command with action := action } :: s.commands }
      readCommands fuel

/-- The program that a text is. -/
def Program.ofText (extended : Bool) (s : Octets) : Except Wrong Program := do
  let (_, source) ← (readCommands (s.length + 1)).run { rest := s, extended := extended }
  if !source.opened.isEmpty then throw ⟨"unmatched `\x7b'", .whole⟩
  let program : Program :=
    { commands := source.commands.reverse.toArray, labels := source.labels }
  let missing := source.commands.reverse.findSome? fun command => match command.action with
    | .jump label _ =>
      if label.isEmpty || source.labels.any (·.1 == label) then none else some label
    | _ => none
  match missing with
  | some label => throw ⟨("can't find label for jump to `" : Text) ++ label ++ ['\''], .whole⟩
  | none => return program

end CompileFail.Utility.Sed
