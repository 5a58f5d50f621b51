import CompileFail.Text.Octets

/-! Backslashes in what is printed. Which letters and digits they go together with depends on who
prints. -/

namespace CompileFail.Script

/-- What may stand behind a backslash other than one of the letters that all agree on. -/
structure Escape where
  /-- A zero may stand in front of three octal digits. -/
  leadingZero : Bool := false
  /-- Octal digits may come without a zero in front. -/
  bareOctal : Bool := false
  hexadecimal : Bool := false
  /-- Code points in hexadecimal digits. -/
  codePoints : Bool := false
  /-- Quotes, and the letter for the escape character. -/
  quotes : Bool := false
  escapeLetter : Bool := false
  /-- The letter `c` ends all output. -/
  stops : Bool := false

namespace Escape

/-- The plain shell's `echo`, and its `printf` for arguments. -/
def plainText : Escape :=
  { leadingZero := true, bareOctal := true, escapeLetter := true, stops := true }

def plainFormat : Escape := { bareOctal := true, escapeLetter := true }

def richEcho : Escape :=
  { leadingZero := true, hexadecimal := true, codePoints := true, escapeLetter := true
    stops := true }

def richText : Escape :=
  { leadingZero := true, bareOctal := true, hexadecimal := true, codePoints := true
    escapeLetter := true, quotes := true, stops := true }

def richFormat : Escape :=
  { bareOctal := true, hexadecimal := true, codePoints := true, escapeLetter := true
    quotes := true }

/-- The program `echo`. -/
def programEcho : Escape :=
  { leadingZero := true, bareOctal := true, hexadecimal := true, escapeLetter := true
    stops := true }

/-- The program `printf`. -/
def programText : Escape :=
  { leadingZero := true, bareOctal := true, hexadecimal := true, codePoints := true
    escapeLetter := true, quotes := true, stops := true }

def programFormat : Escape :=
  { bareOctal := true, hexadecimal := true, codePoints := true, escapeLetter := true
    quotes := true, stops := true }

/-- What the text behind a backslash asks for, and the rest; `none` if output ends here. A
backslash in front of anything unknown stands for itself. -/
def read (e : Escape) : Text → Option (Text × Text)
  | [] => some (['\\'], [])
  | c :: s =>
    let octet (n : Nat) : Text := [Char.ofNat (n % 256)]
    let literal : Option (Text × Text) := some (['\\', c], s)
    if e.leadingZero ∧ c = '0' then
      let (n, rest) := Text.leadingDigits 8 3 s
      some (octet n, rest)
    else if e.bareOctal ∧ '0' ≤ c ∧ c ≤ '7' then
      let (n, rest) := Text.leadingDigits 8 3 (c :: s)
      some (octet n, rest)
    else match c with
      | '\\' => some (['\\'], s)
      | 'a' => some (['\x07'], s)
      | 'b' => some (['\x08'], s)
      | 'f' => some (['\x0c'], s)
      | 'n' => some (['\n'], s)
      | 'r' => some (['\r'], s)
      | 't' => some (['\t'], s)
      | 'v' => some (['\x0b'], s)
      | 'c' => if e.stops then none else literal
      | 'e' => if e.escapeLetter then some (['\x1b'], s) else literal
      | 'E' => if e.escapeLetter ∧ e.codePoints then some (['\x1b'], s) else literal
      | '"' => if e.quotes then some (['"'], s) else literal
      | 'x' =>
        let (n, rest) := Text.leadingDigits 16 2 s
        if e.hexadecimal ∧ rest.length < s.length then some (octet n, rest) else literal
      | 'u' | 'U' =>
        let (n, rest) := Text.leadingDigits 16 (if c = 'u' then 4 else 8) s
        if e.codePoints ∧ rest.length < s.length then
          some (if n < 128 then octet n else codePoint c n, rest)
        else literal
      | _ => literal
where
  /-- Where only plain characters are known, the others keep the form they were written in. -/
  codePoint (c : Char) (n : Nat) : Text :=
    let digits := (Nat.toDigits 16 n).map Char.toUpper
    let width := if c = 'u' then 4 else 8
    '\\' :: c :: (List.replicate (width - digits.length) '0' ++ digits)

/-- A text with its escapes replaced, and whether it was cut short; the first `fuel` characters are
looked at. -/
def replaceWithin (e : Escape) : (fuel : Nat) → Text → Text × Bool
  | 0, _ => ([], false)
  | _, [] => ([], false)
  | fuel + 1, '\\' :: s =>
    match e.read s with
    | none => ([], true)
    | some (chars, s) =>
      let (rest, cut) := replaceWithin e fuel s
      (chars ++ rest, cut)
  | fuel + 1, c :: s =>
    let (rest, cut) := replaceWithin e fuel s
    (c :: rest, cut)

def replace (e : Escape) (s : Text) : Text × Bool := replaceWithin e (s.length + 1) s

end Escape

/-- Arguments with blanks between them and a line end, unless that is left out or escapes, if they
are looked for, cut the text short. -/
def echoed (escape : Option Escape) (newline : Bool) (args : List Text) : Text :=
  let body := [' '].intercalate args
  let ending : Text := if newline then ['\n'] else []
  match escape with
  | none => body ++ ending
  | some e =>
    let (body, cut) := e.replace body
    if cut then body else body ++ ending

/-- What the plain shell's `echo` writes. -/
def plainEcho (args : List Text) : Text :=
  match args with
  | ['-', 'n'] :: rest => echoed (some .plainText) false rest
  | _ => echoed (some .plainText) true args

/-- What `echo` writes where it knows the options `n`, `e` and `E`. -/
def optionEcho (e : Escape) (args : List Text) : Text :=
  let isOption (arg : Text) : Bool :=
    arg.head? == some '-' && arg.length > 1 && (arg.drop 1).all fun c => c == 'n' || c == 'e' || c == 'E'
  let options := (args.takeWhile isOption).flatten
  let escapes := (options.reverse.find? fun c => c == 'e' || c == 'E') == some 'e'
  echoed (if escapes then some e else none) (!options.any (· == 'n')) (args.dropWhile isOption)

end CompileFail.Script
