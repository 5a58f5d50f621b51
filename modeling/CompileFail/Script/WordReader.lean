import CompileFail.Script.Reader

/-! Reading words. What ends a word and what is special in it depends on where it stands. -/

namespace CompileFail.Script

/-- Where a word is read. -/
inductive Surrounding where
  | bare
  | quotes
  /-- In text for the input of a command, which ends where the text ends. -/
  | document
  /-- In the line that closes such a text. -/
  | closing
  | braces (quoted : Bool)
  /-- In an arithmetic expression, inside a number of parentheses. -/
  | arithmetic (depth : Nat)
  /-- In the brackets behind the name of an array. -/
  | index
  /-- In a part of an expansion that ends at a character. -/
  | part (stop : Char) (quoted : Bool)
  /-- In a regular expression, inside a number of parentheses. -/
  | regex (depth : Nat)

namespace Surrounding

def isQuoted : Surrounding → Bool
  | quotes | document | arithmetic _ => true
  | braces quoted | part _ quoted => quoted
  | bare | closing | index | regex _ => false

/-- Whether a character ends a word. -/
def endsAt (c : Char) : Surrounding → Bool
  | bare | closing => isMeta c
  | quotes => c == '"'
  | document | arithmetic _ => false
  | braces _ => c == '\x7d'
  | index => c == ']'
  | part stop _ => c == stop || c == '\x7d'
  | regex depth => c == ' ' || c == '\t' || c == '\n' || depth == 0 && c == ')'

/-- Whether the end of the text ends a word. -/
def endsAtEnd : Surrounding → Bool
  | bare | document | closing | regex _ => true
  | _ => false

/-- What is wrong if the text ends before the word does. -/
def unterminated : Surrounding → Offence
  | braces false | part .. | index => .unterminated '\x7d'
  | arithmetic _ => .unterminated ')'
  | _ => .unterminated '"'

/-- Whether a double quote opens a quoted part. -/
def opensQuotes : Surrounding → Bool
  | quotes | document | arithmetic _ => false
  | _ => true

def inBraces : Surrounding → Bool
  | braces _ | part .. => true
  | _ => false

def isDocument : Surrounding → Bool
  | document => true
  | _ => false

/-- The surroundings of what follows a character. -/
def behind (c : Char) : Surrounding → Surrounding
  | arithmetic depth =>
    arithmetic (if c = '(' then depth + 1 else if c = ')' then depth - 1 else depth)
  | regex depth => regex (if c = '(' then depth + 1 else if c = ')' then depth - 1 else depth)
  | place => place

/-- Whether a backslash before a character is more than a character. -/
def escapes (place : Surrounding) (c : Char) : Bool :=
  !place.isQuoted || c == '$' || c == '`' || c == '\\' || c == '"' && !place.isDocument ||
    c == '\x7d' && place.inBraces

end Surrounding

/-- How a variable in braces is used, by the mark behind its name. -/
def fallbackOf? : Char → Option Fallback
  | '-' => some .useWord
  | '=' => some .assignWord
  | '?' => some .complain
  | '+' => some .replace
  | _ => none

/-- The characters that the text behind a backslash asks for between dollar quotes, and the rest. -/
def dollarEscape : Text → Text × Text
  | [] => (['\\'], [])
  | c :: s =>
    if '0' ≤ c ∧ c ≤ '7' then
      let (n, rest) := Text.leadingDigits 8 3 (c :: s)
      ([Char.ofNat (n % 256)], rest)
    else match c with
      | 'a' => (['\x07'], s)
      | 'b' => (['\x08'], s)
      | 'e' | 'E' => (['\x1b'], s)
      | 'f' => (['\x0c'], s)
      | 'n' => (['\n'], s)
      | 'r' => (['\r'], s)
      | 't' => (['\t'], s)
      | 'v' => (['\x0b'], s)
      | '\\' | '\'' | '"' | '?' => ([c], s)
      | 'x' =>
        let (n, rest) := Text.leadingDigits 16 2 s
        if rest.length = s.length then (['\\', 'x'], s) else ([Char.ofNat (n % 256)], rest)
      | 'u' | 'U' =>
        let (n, rest) := Text.leadingDigits 16 (if c = 'u' then 4 else 8) s
        if rest.length = s.length then (['\\', c], s)
        else if n < 128 then ([Char.ofNat n], rest)
        else (spelled n, rest)
      | _ => (['\\', c], s)
where
  /-- A character that the plain locale does not have keeps a spelled form. -/
  spelled (n : Nat) : Text :=
    let size := if n < 65536 then 4 else 8
    let digits := (Nat.toDigits 16 n).map Char.toUpper
    '\\' :: (if n < 65536 then 'u' else 'U') :: List.replicate (size - digits.length) '0' ++ digits

/-- The text between dollar quotes and what follows them. -/
def dollarQuoted? : (fuel : Nat) → Text → Option (Text × Text)
  | 0, _ => none
  | _, [] => none
  | _, '\'' :: s => some ([], s)
  | fuel + 1, '\\' :: s =>
    let (chars, s) := dollarEscape s
    (dollarQuoted? fuel s).map fun (body, rest) => (chars ++ body, rest)
  | fuel + 1, c :: s => (dollarQuoted? fuel s).map fun (body, rest) => (c :: body, rest)

/-- The text between backquotes and what follows the second one. -/
def backquoted? (inQuotes : Bool) : Text → Option (Text × Text)
  | [] => none
  | '`' :: s => some ([], s)
  | '\\' :: c :: s =>
    (backquoted? inQuotes s).map fun (body, rest) =>
      (if c = '`' ∨ c = '\\' ∨ c = '$' ∨ inQuotes ∧ c = '"' then c :: body else '\\' :: c :: body,
        rest)
  | c :: s => (backquoted? inQuotes s).map fun (body, rest) => (c :: body, rest)

namespace WordReader

/-- Tries one way to read and goes back if it fails. -/
def orElse {α : Type} (first second : Parse α) : Parse α := fun r =>
  match first r with
  | .ok result => .ok result
  | .error _ => second r

mutual

/-- The pieces of a word up to what ends it. Commands inside of it are read by `nested`. -/
def pieces (nested : Parse Command) : (fuel : Nat) → Surrounding → Parse Word
  | 0, place => Parse.fail place.unterminated
  | fuel + 1, place => do
    match ← Parse.peek with
    | none => if place.endsAtEnd then return [] else Parse.fail place.unterminated
    | some c =>
      if place.endsAt c then
        match c, (← get).rest with
        | '<', '<' :: '(' :: _ | '>', '>' :: '(' :: _ => do
          if (← Parse.isBash) && !place.isQuoted then processName nested fuel place c
          else return []
        | _, _ => return []
      else if c = '$' ∧ !(place matches .closing) then do
        Parse.skip
        let piece ← dollar nested fuel place
        return piece ++ (← pieces nested fuel place)
      else if c = '`' ∧ !(place matches .closing) then do
        Parse.skip
        match backquoted? place.isQuoted (← get).rest with
        | none => Parse.quotation do
            modify fun r => r.skipTo []
            Parse.fail (.unterminated '`')
        | some (body, rest) => do
          modify fun r => r.skipTo rest
          let command ← Parse.apart body 1 nested
          return .substitution command place.isQuoted :: (← pieces nested fuel place)
      else if c = '\\' then do
        Parse.skip
        match (← get).rest with
        | [] => return [.chars ['\\'] true]
        | d :: _ =>
          Parse.skip
          let rest ← pieces nested fuel place
          if place.escapes d then return Word.cons d true rest
          else return Word.cons '\\' true (Word.cons d true rest)
      else if c = '"' ∧ place.opensQuotes then do
        Parse.skip
        let inner ← Parse.quotation (pieces nested fuel .quotes)
        Parse.skip
        let rest ← pieces nested fuel place
        return (if inner.isEmpty then [.chars [] true] else inner) ++ rest
      else if c = '\'' ∧ !place.isQuoted then do
        Parse.skip
        let r ← get
        let body := r.rest.takeWhile (· != '\'')
        Parse.quotation do
          set (r.skipTo (r.rest.drop body.length))
          if (← get).rest.isEmpty then Parse.fail (.unterminated '\'')
        Parse.skip
        return .chars body true :: (← pieces nested fuel place)
      else if c = ')' ∧ place matches .arithmetic 0 then do
        Parse.skip
        if (← Parse.peek) = some ')' then
          Parse.skip
          return []
        else return Word.cons c true (← pieces nested fuel place)
      else do
        Parse.skip
        return Word.cons c place.isQuoted (← pieces nested fuel (place.behind c))

/-- The name of a stream that a command reads or writes, and the rest of the word. -/
def processName (nested : Parse Command) : (fuel : Nat) → Surrounding → (mark : Char) → Parse Word
  | 0, place, _ => Parse.fail place.unterminated
  | fuel + 1, place, mark => do
    Parse.skip
    Parse.skip
    let body ← Parse.inside nested
    return .process body (mark == '<') :: (← pieces nested fuel place)

/-- An expansion of which the dollar sign has been read. -/
def dollar (nested : Parse Command) : (fuel : Nat) → Surrounding → Parse Word
  | 0, place => Parse.fail place.unterminated
  | fuel + 1, place => do
    let quoted := place.isQuoted
    match ← Parse.peek with
    | some '(' =>
      Parse.skip
      let command : Parse Word := return [.substitution (← Parse.inside nested) quoted]
      if (← Parse.peek) = some '(' then
        let expression : Parse Word := do
          Parse.skip
          return [.arithmetic (← pieces nested fuel (.arithmetic 0)) quoted]
        if ← Parse.isBash then orElse expression command else expression
      else command
    | some '\x7b' =>
      Parse.skip
      Parse.quotation do
        if ← Parse.isBash then return [← richBraces nested fuel quoted]
        else return [← braces nested fuel quoted]
    | some '\'' =>
      if (← Parse.isBash) && !quoted then
        Parse.skip
        match dollarQuoted? ((← get).rest.length + 1) (← get).rest with
        | none => Parse.fail (.unterminated '\'')
        | some (body, rest) =>
          modify fun r => r.skipTo rest
          return [.chars body true]
      else return [.chars ['$'] quoted]
    | some '"' =>
      if (← Parse.isBash) && !quoted then return [] else return [.chars ['$'] quoted]
    | some c =>
      if isNameStart c then
        return [.variable (← Parse.takeAll isNameChar) none .plain quoted]
      else if c.isDigit || isSpecialName c then
        Parse.skip
        return [.variable [c] none .plain quoted]
      else return [.chars ['$'] quoted]
    | none => return [.chars ['$'] quoted]

/-- The use of a variable behind its name, and the closing brace. -/
def useOf (nested : Parse Command) : (fuel : Nat) → (quoted : Bool) → Parse Use
  | 0, _ => Parse.fail (.unterminated '\x7d')
  | fuel + 1, quoted => do
    let invalid : Parse Use := do
      let _ ← pieces nested fuel (.braces quoted)
      Parse.skip
      return .invalid []
    let fallback (kind : Fallback) (colon : Bool) : Parse Use := do
      let word ← pieces nested fuel (.braces quoted)
      Parse.skip
      return .fallback kind colon word
    let trim (short long : Trim) (mark : Char) : Parse Use := do
      Parse.skip
      let kind ← if ← Parse.accept mark then pure long else pure short
      let pattern ← pieces nested fuel (.braces false)
      Parse.skip
      return .trim kind pattern
    match ← Parse.peek with
    | some '\x7d' =>
      Parse.skip
      return .plain
    | some ':' =>
      Parse.skip
      match ← Parse.peek with
      | some '\x7d' =>
        Parse.skip
        return .plain
      | some c =>
        match fallbackOf? c with
        | some kind =>
          Parse.skip
          fallback kind true
        | none => invalid
      | none => invalid
    | some '#' => trim .shortestPrefix .longestPrefix '#'
    | some '%' => trim .shortestSuffix .longestSuffix '%'
    | some c =>
      match fallbackOf? c with
      | some kind =>
        Parse.skip
        fallback kind false
      | none => invalid
    | none => invalid

/-- An expansion in braces, of which the opening one has been read. A number sign asks for a length
if a name follows, or if a parameter and nothing else does. -/
def braces (nested : Parse Command) : (fuel : Nat) → (quoted : Bool) → Parse Piece
  | 0, _ => Parse.fail (.unterminated '\x7d')
  | fuel + 1, quoted => do
    let named (name : Text) : Parse Piece :=
      return .variable name none (← useOf nested fuel quoted) quoted
    let lengthOf (name : Text) : Parse Piece := do
      if ← Parse.accept '\x7d' then return .variable name none .length quoted
      else
        let _ ← pieces nested fuel (.braces quoted)
        Parse.skip
        return .variable name none (.invalid []) quoted
    let start : Parse (Option Text) := do
      match ← Parse.peek with
      | some c =>
        if isNameStart c then return some (← Parse.takeAll isNameChar)
        else if c.isDigit then return some (← Parse.takeAll Char.isDigit)
        else if isSpecialName c then
          Parse.skip
          return some [c]
        else return none
      | none => return none
    if (← Parse.peek) = some '#' then
      Parse.skip
      match ← Parse.peek with
      | some c =>
        if isNameChar c then lengthOf ((← start).getD [])
        else
          let before ← get
          Parse.skip
          if c ≠ '\x7d' ∧ isSpecialName c ∧ (← Parse.peek) = some '\x7d' then lengthOf [c]
          else
            set before
            named ['#']
      | none => named ['#']
    else match ← start with
      | some name => named name
      | none =>
        let _ ← pieces nested fuel (.braces quoted)
        Parse.skip
        return .variable [] none (.invalid []) quoted

/-- An expansion in braces with the uses that only the larger shell knows. -/
def richBraces (nested : Parse Command) : (fuel : Nat) → (quoted : Bool) → Parse Piece
  | 0, _ => Parse.fail (.unterminated '\x7d')
  | fuel + 1, quoted => do
    let start ← get
    let nameOf : Parse (Text × Option Word) := do
      match ← Parse.peek with
      | some c =>
        if isNameStart c then
          let name ← Parse.takeAll isNameChar
          if ← Parse.accept '[' then
            let index ← pieces nested fuel .index
            Parse.skip
            return (name, some index)
          else return (name, none)
        else if c.isDigit then return (← Parse.takeAll Char.isDigit, none)
        else if isSpecialName c then
          Parse.skip
          return ([c], none)
        else return ([], none)
      | none => return ([], none)
    let invalid : Parse Piece := do
      let _ ← pieces nested fuel (.braces quoted)
      Parse.skip
      let size := start.rest.length - (← get).rest.length
      return .variable [] none (.invalid (start.rest.take size)) quoted
    let next (s : Text) (offset : Nat) : Option Char := (s.drop offset).head?
    match start.rest with
    | '#' :: rest =>
      if rest.head? = some '\x7d' then richUse nested fuel ['#'] none quoted start.rest
      else if rest.head?.any (fun c => isNameChar c || c == '@' || c == '*' || c == '?' || c == '-')
          ∧ !(rest.head?.any (fun c => c == '?' || c == '-') ∧ next rest 1 ≠ some '\x7d') then
        Parse.skip
        let (name, index) ← nameOf
        if ← Parse.accept '\x7d' then return .variable name index .length quoted else invalid
      else
        Parse.skip
        richUse nested fuel ['#'] none quoted start.rest
    | '!' :: rest =>
      if rest.head?.any fun c => isNameChar c || c == '@' || c == '#' then
        Parse.skip
        let (name, index) ← nameOf
        let wholly := match index with
          | some [.chars ['@'] _] | some [.chars ['*'] _] => true
          | _ => false
        if ← (if wholly then Parse.accept '\x7d' else pure false) then
          return .variable name index .keys quoted
        else
          let mark := (← get).rest
          if index.isNone && (mark.take 2 == ['*', '\x7d'] || mark.take 2 == ['@', '\x7d']) then
            Parse.skip
            Parse.skip
            return .variable name none .keys quoted
          else
            match ← richUse nested fuel name index quoted start.rest with
            | .variable name index use quoted => return .variable name index (.indirect use) quoted
            | piece => return piece
      else
        Parse.skip
        richUse nested fuel ['!'] none quoted start.rest
    | _ =>
      let (name, index) ← nameOf
      if name.isEmpty then invalid else richUse nested fuel name index quoted start.rest

/-- The use of a variable behind its name, and the closing brace; `whole` is the text from the name
on. -/
def richUse (nested : Parse Command) : (fuel : Nat) → (name : Text) → (index : Option Word) →
    (quoted : Bool) → (whole : Text) → Parse Piece
  | 0, _, _, _, _ => Parse.fail (.unterminated '\x7d')
  | fuel + 1, name, index, quoted, whole => do
    let used (use : Use) : Parse Piece := return .variable name index use quoted
    let plainUses : Parse Piece := do
      match ← useOf nested fuel quoted with
      | .invalid _ =>
        let size := whole.length - (← get).rest.length
        return .variable [] none (.invalid (whole.take size)) quoted
      | use => used use
    match (← get).rest with
    | ':' :: c :: _ =>
      if (fallbackOf? c).isSome then plainUses
      else
        Parse.skip
        let start ← pieces nested fuel (.part ':' false)
        if ← Parse.accept ':' then
          let size ← pieces nested fuel (.braces false)
          Parse.skip
          used (.slice start (some size))
        else
          Parse.skip
          used (.slice start none)
    | '/' :: _ =>
      Parse.skip
      let kind ← match (← get).rest.head? with
        | some '/' => do
          Parse.skip
          pure Replacing.every
        | some '#' => do
          Parse.skip
          pure Replacing.atStart
        | some '%' => do
          Parse.skip
          pure Replacing.atEnd
        | _ => pure Replacing.first
      let pattern ← pieces nested fuel (.part '/' false)
      if ← Parse.accept '/' then
        let replacement ← pieces nested fuel (.braces false)
        Parse.skip
        used (.exchange kind pattern replacement)
      else
        Parse.skip
        used (.exchange kind pattern [])
    | '^' :: _ | ',' :: _ =>
      let mark := ((← get).rest.head?).getD '^'
      Parse.skip
      let every ← Parse.accept mark
      let pattern ← pieces nested fuel (.braces false)
      Parse.skip
      used (.recase (mark == '^') every pattern)
    | '@' :: c :: '\x7d' :: _ =>
      Parse.skip
      Parse.skip
      Parse.skip
      used (.transform c)
    | _ => plainUses

end

/-- Enough fuel for the text that is left. -/
def fuel : Parse Nat := return 4 * (← get).rest.length + 16

/-- A word up to what ends it. -/
def word (nested : Parse Command) (place : Surrounding) : Parse Word := do
  pieces nested (← fuel) place

end WordReader

end CompileFail.Script
