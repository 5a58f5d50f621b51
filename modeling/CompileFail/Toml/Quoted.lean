import CompileFail.Toml.Scalar

/-! Quoted text in TOML: on one line or on several, with escape sequences between double quotes
and without them between single quotes. -/

namespace CompileFail.Toml

/-- Characters that may stand in a comment and, its delimiter apart, in quotes. -/
def isPlain (c : Char) : Bool := c == '\t' || (' ' ≤ c && c != '\x7f')

/-- Blanks within a line. -/
def isSpace (c : Char) : Bool := c == ' ' || c == '\t'

/-- Takes a line end off the front of a text. -/
def newline? : Text → Option Text
  | '\n' :: rest => some rest
  | '\r' :: '\n' :: rest => some rest
  | _ => none

/-- The character of an escape sequence with its code in hexadecimal. -/
def coded? (width : Nat) (s : Text) : Option (Char × Text) :=
  let code := s.take width
  let n := valueInBase 16 code
  if code.length = width ∧ code.all isHexDigit ∧ n.isValidChar then
    some (Char.ofNat n, s.drop width)
  else none

/-- The character of an escape sequence of which the backslash has been read. -/
def escaped? : Text → Option (Char × Text)
  | 'b' :: rest => some ('\x08', rest)
  | 'f' :: rest => some ('\x0c', rest)
  | 'n' :: rest => some ('\n', rest)
  | 'r' :: rest => some ('\r', rest)
  | 't' :: rest => some ('\t', rest)
  | '"' :: rest => some ('"', rest)
  | '\\' :: rest => some ('\\', rest)
  | 'u' :: rest => coded? 4 rest
  | 'U' :: rest => coded? 8 rest
  | _ => none

/-- What follows a line end that a backslash has made void: blanks and line ends are skipped. -/
def afterJoint? (s : Text) : Option Text := do
  let rest ← newline? (s.dropWhile isSpace)
  some (skip rest.length rest)
where
  /-- Skips blanks and line ends, at most `limit` of them. -/
  skip : Nat → Text → Text
    | 0, s => s
    | limit + 1, s =>
      match newline? (s.dropWhile isSpace) with
      | some rest => skip limit rest
      | none => s.dropWhile isSpace

/-- The text up to the closing quote on the same line. -/
def readLine? (quote : Char) : (fuel : Nat) → Text → Option (Text × Text)
  | 0, _ => none
  | _, [] => none
  | fuel + 1, c :: s =>
    if c = quote then some ([], s)
    else if c = '\\' ∧ quote = '"' then do
      let (e, s) ← escaped? s
      let (text, rest) ← readLine? quote fuel s
      some (e :: text, rest)
    else if isPlain c then do
      let (text, rest) ← readLine? quote fuel s
      some (c :: text, rest)
    else none

/-- The text up to three closing quotes. Up to two more quotes before them belong to the text. -/
def readBlock? (quote : Char) : (fuel : Nat) → Text → Option (Text × Text)
  | 0, _ => none
  | _, [] => none
  | fuel + 1, c :: s =>
    let quotes := (c :: s).takeWhile (· == quote)
    if 6 ≤ quotes.length then some (List.replicate 2 quote, (c :: s).drop 5)
    else if 3 ≤ quotes.length then
      some (List.replicate (quotes.length - 3) quote, (c :: s).drop quotes.length)
    else if c = '\\' ∧ quote = '"' then
      match afterJoint? s with
      | some s => readBlock? quote fuel s
      | none => do
        let (e, s) ← escaped? s
        let (text, rest) ← readBlock? quote fuel s
        some (e :: text, rest)
    else match newline? (c :: s) with
      | some s => do
        let (text, rest) ← readBlock? quote fuel s
        some ('\n' :: text, rest)
      | none =>
        if isPlain c then do
          let (text, rest) ← readBlock? quote fuel s
          some (c :: text, rest)
        else none

/-- Quoted text at the start of a text; on several lines only where that is allowed. -/
def readQuoted? (allowBlock : Bool) (s : Text) : Option (Text × Text) :=
  match s with
  | quote :: rest =>
    if quote != '"' && quote != '\'' then none
    else if allowBlock && [quote, quote].isPrefixOf rest then
      let body := rest.drop 2
      let body := (newline? body).getD body
      readBlock? quote (body.length + 1) body
    else readLine? quote (rest.length + 1) rest
  | [] => none

end CompileFail.Toml
