import CompileFail.Script.WordReader

/-! Reading commands, one complete command at a time, so that what stands before an offence against
the grammar is carried out. -/

namespace CompileFail.Script

namespace Word

/-- The name that a word assigns to, whether it appends, and the value; in the larger shell an index
may stand behind the name. -/
def assignment? (dialect : Dialect) (w : Word) : Option Assignment :=
  match w with
  | .chars text false :: rest =>
    let name := text.takeWhile isNameChar
    if !name.head?.any isNameStart then none
    else match text.drop name.length, dialect with
      | '=' :: value, _ => some (.mk name none false (joined value rest))
      | '+' :: '=' :: value, .bash => some (.mk name none true (joined value rest))
      | '[' :: after, .bash =>
        match splitIndex? (joined after rest) with
        | some (index, .chars ('=' :: value) false :: rest) =>
          some (.mk name (some index) false (joined value rest))
        | some (index, .chars ('+' :: '=' :: value) false :: rest) =>
          some (.mk name (some index) true (joined value rest))
        | _ => none
      | _, _ => none
  | _ => none
where
  /-- A word that goes on with some text. -/
  joined (text : Text) (rest : Word) : Word :=
    if text.isEmpty then rest else .chars text false :: rest
  /-- What stands before and behind the bracket that closes an index. -/
  splitIndex? : Word → Option (Word × Word)
    | [] => none
    | .chars text false :: rest =>
      match Text.splitOnce? ']' text with
      | some (before, after) => some (joined before [], joined after rest)
      | none => (splitIndex? rest).map fun (before, after) => (.chars text false :: before, after)
    | piece :: rest => (splitIndex? rest).map fun (before, after) => (piece :: before, after)

/-- The parts of a word between the semicolons of a loop that counts. -/
def splitAtSemicolons : Word → List Word
  | [] => [[]]
  | .chars text quoted :: rest =>
    let parts := (Text.splitOn ';' text).map fun part =>
      if part.isEmpty then [] else [Piece.chars part quoted]
    match parts.reverse, splitAtSemicolons rest with
    | last :: before, first :: after => before.reverse ++ (last ++ first) :: after
    | _, words => words
  | piece :: rest =>
    match splitAtSemicolons rest with
    | first :: after => (piece :: first) :: after
    | [] => [[piece]]

end Word

/-- Builtins that may not give their names to functions. -/
def specialBuiltins : List Text :=
  [".", ":", "break", "continue", "eval", "exec", "exit", "export", "readonly", "return", "set",
   "shift", "times", "trap", "unset", "local"]

namespace Grammar

/-- What may stand in front of a token or be made of it. -/
structure Expecting where
  newlines : Bool := false
  keywords : Bool := false
  aliases : Bool := false

def atStart : Expecting := { newlines := true, keywords := true, aliases := true }

def afterWord : Expecting := {}

def unexpected {α : Type} (token : Token) (expected : Option Token := none) : Parse α :=
  Parse.fail (.unexpected token expected)

/-- Reads the texts that begin at this line. -/
def readDocuments (nested : Parse Command) : Parse Unit := do
  let awaited := (← get).awaited
  modify ({ · with awaited := [] })
  awaited.forM fun d => do
    let r ← get
    let (body, rest?) := d.cut false (Text.splitLines r.rest)
    let rest := rest?.getD []
    if rest?.isNone then modify fun r =>
      { r with
        warnings := r.warnings ++ [((r.skipTo []).line - 1,
          ("here-document at line " : Text) ++ Text.ofNat d.line ++
            (" delimited by end-of-file (wanted `" : Text) ++ d.closing ++ ("')" : Text))] }
    let word ←
      if d.literal then pure [Piece.chars body true]
      else Parse.apart body r.line (WordReader.word nested .document)
    modify fun r => { r.skipTo rest with documents := (d.id, word) :: r.documents }

/-- The operator of a redirection, behind its descriptor. -/
def readOperator (fd : Option Nat) : Parse Token := do
  let first := (← Parse.peek).getD '<'
  Parse.skip
  let more ← Parse.peek
  if first = '<' then
    if more = some '<' then
      Parse.skip
      if ← Parse.accept '-' then return .redirection fd "<<-"
      else if ← Parse.acceptRich '<' then return .redirection fd "<<<"
      else return .redirection fd "<<"
    else if more = some '&' ∨ more = some '>' then
      Parse.skip
      return .redirection fd ['<', more.getD '&']
    else return .redirection fd "<"
  else if more = some '>' ∨ more = some '|' ∨ more = some '&' then
    Parse.skip
    return .redirection fd ['>', more.getD '&']
  else return .redirection fd ">"

/-- The name and the index at the front of a text that gives an element of an array a value, if blanks
stand in the index. -/
def spacedIndex? (s : Text) : Option (Text × Text) :=
  let name := s.takeWhile isNameChar
  match s.drop name.length with
  | '[' :: rest =>
    let index := rest.takeWhile fun c => isNameChar c || c == ' '
    let after := rest.drop index.length
    if name.head?.any isNameStart && index.any (· == ' ') &&
        (after.take 2 == [']', '='] || after.take 3 == [']', '+', '=']) then some (name, index)
    else none
  | _ => none

/-- Whether an array is given at the front of a text, and the text in front of its parenthesis. -/
def arrayStart? (s : Text) : Option Text :=
  let name := s.takeWhile isNameChar
  let rest := s.drop name.length
  if !name.head?.any isNameStart then none
  else match rest with
    | '=' :: '(' :: _ => some (name ++ ['='])
    | '+' :: '=' :: '(' :: _ => some (name ++ ['+', '='])
    | _ => none

mutual

/-- The next token as it stands. -/
def rawToken (nested : Parse Command) : (fuel : Nat) → Parse Token
  | 0 => return .endOfFile
  | fuel + 1 => do
    if let some token := (← get).back then
      modify ({ · with back := none })
      return token
    modify Reader.skipBlanks
    let take (token : Token) : Parse Token := do
      Parse.skip
      return token
    let bash ← Parse.isBash
    match ← Parse.peek with
    | none => return .endOfFile
    | some '\n' => take .newline
    | some '&' =>
      Parse.skip
      if ← Parse.accept '&' then return .andIf
      else if ← Parse.acceptRich '>' then
        if ← Parse.accept '>' then return .redirection none "&>>"
        else return .redirection none "&>"
      else return .ampersand
    | some '|' =>
      Parse.skip
      if ← Parse.accept '|' then return .orIf
      else if ← Parse.acceptRich '&' then return .barBoth
      else return .bar
    | some ';' =>
      Parse.skip
      if ← Parse.accept ';' then
        if ← Parse.acceptRich '&' then return .caseEnd .lookOn else return .caseEnd .stop
      else if ← Parse.acceptRich '&' then return .caseEnd .fallThrough
      else return .semicolon
    | some '(' => take .opening
    | some ')' => take .closing
    | some _ =>
      let rest := (← get).rest
      match if bash then arrayStart? rest else none with
      | some lead => do
        modify fun r => r.skipTo (r.rest.drop (lead.length + 1))
        let elements ← readElements nested fuel
        return .word [.chars lead false, .elements elements]
      | none => do
        let word ← match if bash then spacedIndex? rest else none with
          | some (name, index) => do
            modify fun r => r.skipTo (r.rest.drop (name.length + index.length + 1))
            pure (.chars (name ++ ['[']) false :: .chars index true ::
              (← WordReader.word nested .bare))
          | none => WordReader.word nested .bare
        let mark := (← get).rest.head?
        if mark = some '<' ∨ mark = some '>' then
          match Word.bare? word with
          | some digits =>
            if digits.all Char.isDigit && (digits.length ≤ 1 || bash) then
              readOperator (Text.toNat? digits)
            else return .word word
          | none => return .word word
        else return .word word

/-- The elements of an array up to the closing parenthesis. -/
def readElements (nested : Parse Command) : (fuel : Nat) → Parse (List Word)
  | 0 => return []
  | fuel + 1 => do
    match ← rawToken nested fuel with
    | .word word => return word :: (← readElements nested fuel)
    | .newline => readElements nested fuel
    | .closing => return []
    | token => unexpected token

end

/-- The next token: line ends may be skipped, and words may be keywords or aliases. -/
def token (nested : Parse Command) (expecting : Expecting) : (fuel : Nat) → Parse Token
  | 0 => return .endOfFile
  | fuel + 1 => do
    let t ← rawToken nested fuel
    match t with
    | .newline =>
      if expecting.newlines then
        readDocuments nested
        token nested expecting fuel
      else return t
    | .word word =>
      match Word.bare? word with
      | none => return t
      | some s =>
        let r ← get
        if expecting.keywords && (Token.keywords r.dialect).contains s then return .keyword s
        else if expecting.aliases then
          let inUse := r.inAliases.filter fun (_, size) => size ≤ r.rest.length
          match r.aliases.find? fun (name, _) => name == s with
          | some (_, value) =>
            if inUse.any fun (name, _) => name == s then return t
            else
              set { r with rest := value ++ r.rest, inAliases := (s, r.rest.length) :: inUse }
              token nested expecting fuel
          | none => return t
        else return t
    | t => return t

/-- The next token with enough fuel for the text that is left. -/
def next (nested : Parse Command) (expecting : Expecting) : Parse Token := do
  token nested expecting ((← get).rest.length + 16)

/-- The word that a redirection leads to. -/
def readTarget (nested : Parse Command) : Parse Word := do
  match ← next nested afterWord with
  | .word word => return word
  | t => unexpected t

/-- A redirection of which the operator has been read. -/
def readRedirection (nested : Parse Command) (fd : Option Nat) (operator : Text) :
    Parse Redirection := do
  let output := operator.head? == some '>'
  let fd' := fd.getD (if output then 1 else 0)
  let file (mode : Mode) : Parse Redirection := return .file fd' mode (← readTarget nested)
  match String.ofList operator with
  | "<<" | "<<-" =>
    modify Reader.skipBlanks
    let word ← WordReader.word nested .closing
    match Word.text? word with
    | some closing => do
      if word.isEmpty then unexpected (← next nested afterWord)
      let id := (← get).fresh
      modify fun r => { r with
        fresh := id + 1
        awaited := r.awaited ++
          [⟨id, closing, r.line, Word.isQuoted word, operator.length == 3⟩] }
      return .document fd' id
    | none => unexpected .newline
  | "<<<" => return .text fd' (← readTarget nested)
  | "<&" | ">&" =>
    let word ← readTarget nested
    let plain := Word.bare? word
    let isTarget (s : Text) : Bool := s == ['-'] || s.all Char.isDigit
    if (← Parse.isBash) && fd.isNone && output && plain.any (!isTarget ·) then
      return .both false word
    else return .duplicate fd' word
  | "&>" => return .both false (← readTarget nested)
  | "&>>" => return .both true (← readTarget nested)
  | "<" => file .read
  | "<>" => file .readWrite
  | ">>" => file .append
  | ">|" => file .overwrite
  | _ => file .write

/-- Redirections behind a command. -/
def readRedirections (nested : Parse Command) : (fuel : Nat) → Parse (List Redirection)
  | 0 => return []
  | fuel + 1 => do
    match ← next nested { keywords := true, aliases := true } with
    | .redirection fd operator => do
      let first ← readRedirection nested fd operator
      return first :: (← readRedirections nested fuel)
    | t => do
      Parse.giveBack t
      return []

/-- Words of a loop up to the end of the line or a semicolon. -/
def readWords (nested : Parse Command) : (fuel : Nat) → Parse (List Word × Token)
  | 0 => return ([], .newline)
  | fuel + 1 => do
    match ← next nested afterWord with
    | .word word => do
      let (words, last) ← readWords nested fuel
      return (word :: words, last)
    | t => return ([], t)

/-- A simple command as far as it has been read; words end the assignments. -/
structure Simple where
  assignments : List Assignment := []
  words : List Word := []
  redirections : List Redirection := []

/-- What a simple command or the definition of a function starts with. -/
inductive SimpleStart where
  | simple (simple : Simple)
  | definition (name : Text)

/-- A simple command up to its end. -/
def readSimple (nested : Parse Command) : (fuel : Nat) → Simple → Parse SimpleStart
  | 0, simple => return .simple simple
  | fuel + 1, simple => do
    let r ← get
    match ← next nested { aliases := simple.words.isEmpty } with
    | .word word =>
      match if simple.words.isEmpty then Word.assignment? r.dialect word else none with
      | some assignment =>
        readSimple nested fuel { simple with assignments := simple.assignments ++ [assignment] }
      | none => readSimple nested fuel { simple with words := simple.words ++ [word] }
    | .redirection fd operator => do
      let redirection ← readRedirection nested fd operator
      readSimple nested fuel { simple with redirections := simple.redirections ++ [redirection] }
    | .opening =>
      match simple with
      | ⟨[], [word], []⟩ => do
        match ← next nested afterWord with
        | .closing =>
          match Word.bare? word with
          | some name =>
            if r.dialect == .dash && (!isName name || specialBuiltins.contains name) then
              Parse.fail (.other "Bad function name")
            else return .definition name
          | none => Parse.fail (.other "Bad function name")
        | t => unexpected t (some .closing)
      | _ => do
        Parse.giveBack .opening
        return .simple simple
    | t => do
      Parse.giveBack t
      return .simple simple

/-- The keyword that has to come next. -/
def expectKeyword (nested : Parse Command) (word : Text) : Parse Unit := do
  let t ← next nested { keywords := true, aliases := true }
  match t with
  | .keyword s => if s ≠ word then unexpected t (some (.keyword word))
  | _ => unexpected t (some (.keyword word))

/-- The operators of tests that have one operand. -/
def isTestUnary (s : Text) : Bool :=
  match s with
  | ['-', c] => ("abcdefghknoprstuvwxzGLNORS" : String).toList.contains c
  | _ => false

/-- The operators of tests that have two operands, as words. -/
def isTestBinary (s : Text) : Bool :=
  (["=", "==", "!=", "=~", "-eq", "-ne", "-lt", "-le", "-gt", "-ge", "-nt", "-ot", "-ef"] :
    List Text).contains s

mutual

/-- Tests joined by bars. -/
def readTest (nested : Parse Command) : (fuel : Nat) → Parse Test
  | 0 => unexpected .endOfFile
  | fuel + 1 => do
    let first ← readTestAll nested fuel
    match ← next nested { newlines := true } with
    | .orIf => return .either first (← readTest nested fuel)
    | t => do
      Parse.giveBack t
      return first

/-- Tests joined by ampersands. -/
def readTestAll (nested : Parse Command) : (fuel : Nat) → Parse Test
  | 0 => unexpected .endOfFile
  | fuel + 1 => do
    let first ← readTestOne nested fuel
    match ← next nested { newlines := true } with
    | .andIf => return .both first (← readTestAll nested fuel)
    | t => do
      Parse.giveBack t
      return first

def readTestOne (nested : Parse Command) : (fuel : Nat) → Parse Test
  | 0 => unexpected .endOfFile
  | fuel + 1 => do
    match ← next nested { newlines := true } with
    | .opening => do
      let test ← readTest nested fuel
      match ← next nested { newlines := true } with
      | .closing => return test
      | t => unexpected t
    | .word word =>
      match Word.bare? word with
      | some ['!'] => return .negation (← readTestOne nested fuel)
      | some s =>
        if isTestUnary s then
          match ← next nested afterWord with
          | .word operand =>
            if Word.bare? operand = some [']', ']'] then do
              Parse.giveBack (.word operand)
              return .word word
            else return .unary s operand
          | t => do
            Parse.giveBack t
            return .word word
        else readTestRest nested fuel word
      | none => readTestRest nested fuel word
    | t => unexpected t

/-- The rest of a test behind its first operand. -/
def readTestRest (nested : Parse Command) : (fuel : Nat) → Word → Parse Test
  | 0, word => return .word word
  | _ + 1, word => do
    let operand (operator : Text) : Parse Test := do
      if (["=", "==", "!=", "=~"] : List Text).contains operator then
        modify Reader.skipBlanks
        return .binary word operator (← WordReader.word nested (.regex 0))
      else match ← next nested afterWord with
        | .word right => return .binary word operator right
        | t => unexpected t
    match ← next nested afterWord with
    | .redirection none "<" => operand "<"
    | .redirection none ">" => operand ">"
    | .word operator =>
      match Word.bare? operator with
      | some s =>
        if isTestBinary s then operand s
        else do
          Parse.giveBack (.word operator)
          return .word word
      | none => do
        Parse.giveBack (.word operator)
        return .word word
    | t => do
      Parse.giveBack t
      return .word word

end

/-- Where a list of commands is read. -/
inductive ListPlace where
  /-- A complete command of the script, which ends with its line. -/
  | outermost
  /-- A list that may be empty. -/
  | open
  | body
deriving DecidableEq, Repr

/-- A command and the ways it may be joined with others. -/
def joinCommands : List Command → Command
  | [command] => command
  | commands => .sequence commands

/-- A pipeline whose stages may take errors along; `both` says so for the first stage. -/
def withErrors (both : Bool) (line : Nat) (command : Command) : Command :=
  if both then .redirected line command [.duplicate 2 [.chars ['1'] false]] else command

mutual

/-- Commands up to what ends them. -/
def readList : (fuel : Nat) → ListPlace → Parse Command
  | 0, _ => return .sequence []
  | fuel + 1, place => return joinCommands (← readCommands fuel place [])

/-- Commands behind others of the same list. -/
def readCommands : (fuel : Nat) → ListPlace → List Command → Parse (List Command)
  | 0, _, done => return done
  | fuel + 1, place, done => do
    let nested := readList fuel .open
    let outermost := place == ListPlace.outermost
    let t ← next nested { newlines := !outermost, keywords := true, aliases := true }
    match t with
    | .newline =>
      readDocuments nested
      return done
    | .endOfFile =>
      readDocuments nested
      Parse.giveBack t
      return done
    | _ =>
      if (place == ListPlace.open || !done.isEmpty && !outermost) && t.endsList then
        Parse.giveBack t
        return done
      else
        Parse.giveBack t
        let command ← readAndOr fuel
        let t ← next nested afterWord
        let done := done ++ [match t with
          | .ampersand => .background command
          | _ => command]
        match t with
        | .endOfFile =>
          readDocuments nested
          Parse.giveBack t
          return done
        | .newline =>
          Parse.giveBack t
          readCommands fuel place done
        | .ampersand | .semicolon => readCommands fuel place done
        | _ =>
          if outermost then unexpected t
          else
            Parse.giveBack t
            return done

/-- Pipelines between `&&` and `||`. -/
def readAndOr : (fuel : Nat) → Parse Command
  | 0 => return .sequence []
  | fuel + 1 => do readAndOrRest fuel (← readPipeline fuel atStartOfLine)
where
  /-- Line ends in front have been skipped. -/
  atStartOfLine : Expecting := { keywords := true, aliases := true }

/-- The rest of such a list, of which the first pipelines have been read. -/
def readAndOrRest : (fuel : Nat) → Command → Parse Command
  | 0, first => return first
  | fuel + 1, first => do
    let nested := readList fuel .open
    match ← next nested afterWord with
    | .andIf => readAndOrRest fuel (.both first (← readPipeline fuel atStart))
    | .orIf => readAndOrRest fuel (.either first (← readPipeline fuel atStart))
    | t => do
      Parse.giveBack t
      return first

def readPipeline : (fuel : Nat) → Expecting → Parse Command
  | 0, _ => return .sequence []
  | fuel + 1, expecting => do
    let nested := readList fuel .open
    match ← next nested expecting with
    | .keyword ['!'] => do
      let bash ← Parse.isBash
      let again ← next nested { keywords := true, aliases := true }
      Parse.giveBack again
      let command ← match again, bash with
        | .keyword ['!'], true => readPipeline fuel { keywords := true, aliases := true }
        | _, _ => do pure (joinStages (← readStages fuel))
      return .negation command
    | t => do
      Parse.giveBack t
      return joinStages (← readStages fuel)
where
  /-- A single stage needs no pipeline. -/
  joinStages : List Command → Command
    | [command] => command
    | stages => .pipeline stages

/-- Commands between single bars. -/
def readStages : (fuel : Nat) → Parse (List Command)
  | 0 => return []
  | fuel + 1 => do
    let nested := readList fuel .open
    let stage ← readCommand fuel
    match ← next nested afterWord with
    | .bar => do
      let t ← next nested atStart
      Parse.giveBack t
      return stage :: (← readStages fuel)
    | .barBoth => do
      let line := (← get).line
      let t ← next nested atStart
      Parse.giveBack t
      return withErrors true line stage :: (← readStages fuel)
    | t => do
      Parse.giveBack t
      return [stage]

/-- One command with its redirections. -/
def readCommand : (fuel : Nat) → Parse Command
  | 0 => return .sequence []
  | fuel + 1 => do
    let nested := readList fuel .open
    let line := (← get).line
    let finish (command : Command) : Parse Command := do
      let redirections ← readRedirections nested fuel
      return if redirections.isEmpty then command else .redirected line command redirections
    let t ← next nested { keywords := true, aliases := true }
    match t with
    | .opening =>
      if (← Parse.isBash) && (← get).rest.head? == some '(' then
        let subshell : Parse Command := do
          let body ← readList fuel .body
          closeList fuel .closing
          return .subshell line body
        let evaluation : Parse Command := do
          Parse.skip
          return .evaluation line (← WordReader.word nested (.arithmetic 0))
        finish (← WordReader.orElse evaluation subshell)
      else
        let body ← readList fuel .body
        closeList fuel .closing
        finish (.subshell line body)
    | .keyword word =>
      match String.ofList word with
      | "\x7b" => do
        let body ← readList fuel .body
        closeList fuel (.keyword "\x7d")
        finish body
      | "if" => do finish (← readBranch fuel)
      | "while" => do finish (← readRepetition fuel true)
      | "until" => do finish (← readRepetition fuel false)
      | "for" => do finish (← readEach fuel line)
      | "case" => do finish (← readChoice fuel line)
      | "function" => do
        match ← next nested afterWord with
        | .word w => do
          match ← next nested afterWord with
          | .opening => do
            let _ ← next nested afterWord
          | t => Parse.giveBack t
          let t ← next nested atStart
          Parse.giveBack t
          return .definition ((Word.text? w).getD []) (← readCommand fuel)
        | t => unexpected t
      | "[[" => do
        let test ← readTest nested fuel
        match ← next nested { newlines := true } with
        | .word w =>
          if Word.bare? w = some [']', ']'] then finish (.test line test)
          else unexpected (.word w)
        | t => unexpected t
      | _ => unexpected t
    | .word _ | .redirection .. => do
      Parse.giveBack t
      match ← readSimple nested (4 * (← get).rest.length + 16) {} with
      | .simple s => return .simple line s.assignments s.words s.redirections
      | .definition name => do
        let t ← next nested atStart
        Parse.giveBack t
        return .definition name (← readCommand fuel)
    | t => unexpected t

/-- The token that has to end a list. -/
def closeList : (fuel : Nat) → Token → Parse Unit
  | 0, _ => return
  | fuel + 1, last => do
    let nested := readList fuel .open
    let t ← next nested { keywords := true, aliases := true }
    match t, last with
    | .closing, .closing => return
    | .keyword a, .keyword b => if a ≠ b then unexpected t (some last)
    | _, _ => unexpected t (some last)

/-- The rest of a conditional, of which the word that opens a branch has been read. -/
def readBranch : (fuel : Nat) → Parse Command
  | 0 => return .sequence []
  | fuel + 1 => do
    let nested := readList fuel .open
    let condition ← readList fuel .body
    expectKeyword nested "then"
    let body ← readList fuel .body
    match ← next nested { keywords := true, aliases := true } with
    | .keyword "elif" => return .branch condition body (← readBranch fuel)
    | .keyword "else" => do
      let otherwise ← readList fuel .body
      expectKeyword nested "fi"
      return .branch condition body otherwise
    | .keyword "fi" => return .branch condition body (.sequence [])
    | t => unexpected t (some (.keyword "fi"))

def readRepetition : (fuel : Nat) → (sense : Bool) → Parse Command
  | 0, _ => return .sequence []
  | fuel + 1, sense => do
    let condition ← readList fuel .body
    return .repetition sense condition (← readBody fuel)

/-- A body between `do` and `done`. -/
def readBody : (fuel : Nat) → Parse Command
  | 0 => return .sequence []
  | fuel + 1 => do
    let nested := readList fuel .open
    expectKeyword nested "do"
    let body ← readList fuel .body
    expectKeyword nested "done"
    return body

/-- A loop over words, or over the arguments if none are given. -/
def readEach : (fuel : Nat) → (line : Nat) → Parse Command
  | 0, _ => return .sequence []
  | fuel + 1, line => do
    let nested := readList fuel .open
    match ← next nested afterWord with
    | .word w =>
      match Word.bare? w with
      | some name =>
        if !isName name then Parse.fail (.other "Bad for loop variable")
        else
          let t ← next nested atStart
          match t with
          | .keyword "in" => do
            let (words, last) ← readWords nested (4 * (← get).rest.length + 16)
            match last with
            | .newline => do
              Parse.giveBack last
              readEachBody fuel line name (some words)
            | .semicolon => readEachBody fuel line name (some words)
            | t => unexpected t
          | .semicolon => readEachBody fuel line name none
          | t => do
            Parse.giveBack t
            readEachBody fuel line name none
      | none => Parse.fail (.other "Bad for loop variable")
    | .opening =>
      if ← Parse.acceptRich '(' then
        let parts := Word.splitAtSemicolons (← WordReader.word nested (.arithmetic 0))
        match ← next nested atStart with
        | .semicolon => pure ()
        | t => Parse.giveBack t
        let t ← next nested atStart
        Parse.giveBack t
        let body ← match t with
          | .keyword "\x7b" => readCommand fuel
          | _ => readBody fuel
        return .counting line (parts.getD 0 []) (parts.getD 1 []) (parts.getD 2 []) body
      else Parse.fail (.other "Bad for loop variable")
    | _ => Parse.fail (.other "Bad for loop variable")

/-- The body of such a loop. -/
def readEachBody : (fuel : Nat) → (line : Nat) → (name : Text) → Option (List Word) → Parse Command
  | 0, _, _, _ => return .sequence []
  | fuel + 1, line, name, words => do
    let nested := readList fuel .open
    let t ← next nested atStart
    match t with
    | .keyword "do" => do
      let body ← readList fuel .body
      expectKeyword nested "done"
      return .each line name words body
    | .keyword "\x7b" => do
      if ← Parse.isBash then
        let body ← readList fuel .body
        closeList fuel (.keyword "\x7d")
        return .each line name words body
      else unexpected t (some (.keyword "do"))
    | t => unexpected t (some (.keyword "do"))

def readChoice : (fuel : Nat) → (line : Nat) → Parse Command
  | 0, _ => return .sequence []
  | fuel + 1, line => do
    let nested := readList fuel .open
    match ← next nested afterWord with
    | .word subject => do
      let t ← next nested atStart
      match t with
      | .keyword "in" => return .choice line subject (← readCases fuel)
      | t => unexpected t (some (.keyword "in"))
    | t => unexpected t (some (.word []))

/-- The cases of a choice up to its end. -/
def readCases : (fuel : Nat) → Parse (List (List Word × Command × CaseEnd))
  | 0 => return []
  | fuel + 1 => do
    let nested := readList fuel .open
    let t ← next nested { newlines := true, keywords := true }
    match t with
    | .keyword "esac" => return []
    | _ => do
      let first ← match t with
        | .opening => next nested afterWord
        | t => pure t
      let patterns ← readPatterns fuel first
      let body ← readList fuel .open
      let t ← next nested { newlines := true, keywords := true }
      match t with
      | .keyword "esac" => return [(patterns, body, .stop)]
      | .caseEnd kind => return (patterns, body, kind) :: (← readCases fuel)
      | t => unexpected t (some (.caseEnd .stop))

/-- The patterns of a case, of which the first token has been read, and the parenthesis. -/
def readPatterns : (fuel : Nat) → Token → Parse (List Word)
  | 0, _ => return []
  | fuel + 1, first => do
    let nested := readList fuel .open
    let pattern : Word := match first with
      | .word w => w
      | .keyword s => [.chars s false]
      | _ => []
    match first with
    | .endOfFile => unexpected first (some .closing)
    | _ => do
      match ← next nested afterWord with
      | .bar => do
        let t ← next nested afterWord
        return pattern :: (← readPatterns fuel t)
      | .closing => return [pattern]
      | t => unexpected t (some .closing)

end

/-- Enough fuel for a text. -/
def fuelFor (s : Text) : Nat := 8 * s.length + 64

/-- A list of commands inside of a text. -/
def nestedList : Parse Command := do readList (fuelFor (← get).rest) .open

/-- The next complete command of a script, or none at its end. -/
def nextCommand : Parse (Option Command) := do
  modify ({ · with back := none, awaited := [] })
  let fuel := fuelFor (← get).rest
  let command ← readList fuel .outermost
  match command, (← get).back with
  | .sequence [], some .endOfFile => return none
  | _, _ => return some command

end Grammar

end CompileFail.Script
