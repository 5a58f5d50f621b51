import CompileFail.Decimal.Places
import CompileFail.Script.Arithmetic
import CompileFail.Script.Escape

/-! What `printf` writes: a format in which percent signs make room for arguments. -/

namespace CompileFail.Script

/-- Text in a form that a shell reads back. -/
def requoted (s : Text) : Text :=
  let isPlain (c : Char) : Bool := c.isAlphanum || ("_./:=@%+-^" : String).toList.contains c
  if s.isEmpty then ['\'', '\'']
  else if s.any fun c => c.toNat < 32 || c.toNat ≥ 127 then
    ['$', '\''] ++ s.flatMap (fun c =>
      match c with
      | '\n' => ['\\', 'n']
      | '\t' => ['\\', 't']
      | '\r' => ['\\', 'r']
      | '\x07' => ['\\', 'a']
      | '\x08' => ['\\', 'b']
      | '\x0b' => ['\\', 'v']
      | '\x0c' => ['\\', 'f']
      | '\x1b' => ['\\', 'E']
      | '\'' => ['\\', '\'']
      | '\\' => ['\\', '\\']
      | c =>
        if c.toNat < 32 || c.toNat ≥ 127 then
          let digits := Nat.toDigits 8 c.toNat
          '\\' :: (List.replicate (3 - digits.length) '0' ++ digits)
        else [c]) ++ ['\'']
  else
    let body := s.flatMap fun c => if isPlain c then [c] else ['\\', c]
    match s with
    | '~' :: _ => body
    | _ => body

/-- Text between single quotes, if there is need of them. -/
def shellQuoted (s : Text) : Text :=
  if s.isEmpty then ['\'', '\'']
  else if s.all fun c => c.isAlphanum || ("_./:=@%+,-" : String).toList.contains c then s
  else if s.any (· == '\'') ∧ !s.any (fun c => c == '"' || c == '$' || c == '`' || c == '\\') then
    '"' :: s ++ ['"']
  else '\'' :: s.flatMap (fun c => if c = '\'' then "'\\''".toList else [c]) ++ ['\'']

/-- Who prints: one of the shells or the program. -/
inductive Voice where
  | plain
  | rich
  | program
deriving DecidableEq, Repr

namespace Format

/-- A width or a precision. -/
inductive Amount where
  | given (n : Nat)
  | argument
deriving Repr

structure Slot where
  flags : Text
  width : Option Amount
  precision : Option Amount
  kind : Char
deriving Repr

/-- A piece of a format: some text, a place for an argument, or the end of all output. -/
inductive Chunk where
  | text (s : Text)
  | slot (slot : Slot)
  | stop
  /-- What is said about a slot that there is not. -/
  | wrong (message : Text)
deriving Repr

def kinds : Voice → Text
  | .plain => "sbcdiuoxXeEfFgG"
  | .rich | .program => "sbcdiuoxXeEfFgGq"

def readAmount : Text → Option Amount × Text
  | '*' :: s => (some .argument, s)
  | s =>
    let digits := s.takeWhile Char.isDigit
    ((Text.toNat? digits).map .given, s.drop digits.length)

/-- The slot at the start of a text that follows a percent sign. -/
def readSlot (v : Voice) (s : Text) : Chunk × Text :=
  let whole := s
  let flags := s.takeWhile (("#-+ 0" : String).toList.contains ·)
  let (width, s) := readAmount (s.drop flags.length)
  let (precision, s) := match s with
    | '.' :: s => ((readAmount s).1.or (some (Amount.given 0)), (readAmount s).2)
    | s => (none, s)
  let s := if v = Voice.plain then s else s.dropWhile (("hlLjzt" : String).toList.contains ·)
  let seen (s : Text) : Text := '%' :: whole.take (whole.length - s.length)
  match s with
  | kind :: s =>
    if (kinds v).any (· == kind) then (.slot ⟨flags, width, precision, kind⟩, s)
    else (.wrong (match v with
      | .plain => seen s ++ (": invalid directive" : Text)
      | .rich => '`' :: kind :: ("': invalid format character" : Text)
      | .program => seen s ++ (": invalid conversion specification" : Text)), s)
  | [] => (.wrong (match v with
    | .plain => "missing format character"
    | .rich => "`%': missing format character"
    | .program => seen [] ++ (": invalid conversion specification" : Text)), [])

def formatEscape : Voice → Escape
  | .plain => .plainFormat
  | .rich => .richFormat
  | .program => .programFormat

def textEscape : Voice → Escape
  | .plain => .plainText
  | .rich => .richText
  | .program => .programText

/-- The pieces of a format up to the first that is wrong. -/
def read (v : Voice) : (fuel : Nat) → Text → List Chunk
  | 0, _ => []
  | _, [] => []
  | fuel + 1, '\\' :: s =>
    match (formatEscape v).read s with
    | none => [.stop]
    | some (chars, s) => .text chars :: read v fuel s
  | fuel + 1, '%' :: '%' :: s => .text ['%'] :: read v fuel s
  | fuel + 1, '%' :: s =>
    match readSlot v s with
    | (.slot slot, s) => .slot slot :: read v fuel s
    | (chunk, _) => [chunk]
  | fuel + 1, c :: s => .text [c] :: read v fuel s

/-- What is said about an argument that is no number, or only starts like one. -/
def complaint (v : Voice) (arg : Text) (started : Bool) : Text :=
  match v with
  | .plain =>
    arg ++ (if started then ": not completely converted" else ": expected numeric value").toList
  | .rich =>
    let kind :=
      if ("0x" : Text).isPrefixOf arg || ("0X" : Text).isPrefixOf arg then "invalid hex number"
      else if arg.head? = some '0' then "invalid octal number" else "invalid number"
    arg ++ (": " : Text) ++ kind.toList
  | .program =>
    '\'' :: arg ++
      (if started then "': value not completely converted" else "': expected a numeric value").toList

/-- What is said about a number that is too large. -/
def excess (v : Voice) (arg : Text) : Text :=
  let reason : Text := ": Numerical result out of range"
  match v with
  | .plain => arg ++ reason
  | .rich => ("warning: " : Text) ++ arg ++ reason
  | .program => '\'' :: arg ++ ['\''] ++ reason

/-- The number that an argument stands for, and what is to be said about it; a quote in front of a
character asks for its code. -/
def numberOf (v : Voice) (signed : Bool) (arg : Text) : Int × Option Text :=
  match arg with
  | [] => (0, none)
  | '\'' :: c :: _ | '"' :: c :: _ => (c.toNat, none)
  | _ =>
    match Arithmetic.signedNumber? arg with
    | none => (0, some (complaint v arg false))
    | some (_, rest) =>
      let body := arg.dropWhile fun c => Arithmetic.isBlank c || c == '-' || c == '+'
      let negative := (arg.dropWhile Arithmetic.isBlank).head? == some '-'
      let digits := body.take (body.length - rest.length)
      let magnitude := match digits with
        | '0' :: x :: more =>
          if x = 'x' ∨ x = 'X' then (Text.leadingDigits 16 more.length more).1
          else (Text.leadingDigits 8 digits.length digits).1
        | _ => (Text.leadingDigits 10 digits.length digits).1
      let limit : Nat :=
        if signed then (if negative then Nat.pow 2 63 else Nat.pow 2 63 - 1) else Nat.pow 2 64 - 1
      if magnitude > limit then
        (if negative ∧ signed then 0 - limit else limit, some (excess v arg))
      else (if negative then 0 - magnitude else magnitude,
        if rest.isEmpty then none else some (complaint v arg true))

/-- The binary digits of the numbers with a point. -/
def precisionBits : Voice → Nat
  | .plain => 53
  | .rich | .program => 64

/-- The number with a point that an argument stands for: whether it is negative, its magnitude and
what is to be said about it. -/
def ratioOf (v : Voice) (arg : Text) : Bool × Decimal.Ratio × Option Text :=
  match arg with
  | [] => (false, ⟨0, 1⟩, none)
  | '\'' :: c :: _ | '"' :: c :: _ => (false, ⟨c.toNat, 1⟩, none)
  | _ =>
    let s := arg.dropWhile Arithmetic.isBlank
    let (negative, body) := match s with
      | '-' :: s => (true, s)
      | '+' :: s => (false, s)
      | s => (false, s)
    let hexadecimal := ("0x" : Text).isPrefixOf (Text.asciiLower body)
    let found :=
      if hexadecimal then
        let (n, rest) := Text.leadingDigits 16 body.length (body.drop 2)
        some (Decimal.Ratio.mk n 1, rest)
      else Decimal.leadingRatio? body
    match found with
    | none => (false, ⟨0, 1⟩, some (complaint v arg false))
    | some (r, rest) =>
      (negative, r.withBits (precisionBits v),
        if rest.isEmpty then none else some (complaint v arg true))

/-- A text filled up to a width. -/
def pad (flags : Text) (width : Nat) (s : Text) : Text :=
  if flags.any (· == '-') then Text.padRight width s else Text.padLeft width s

/-- Digits with their sign or base in front, filled up with zeros or blanks to a width. -/
def padNumber (flags : Text) (width : Nat) (mayFill : Bool) (sign digits : Text) : Text :=
  if flags.any (· == '0') && !flags.any (· == '-') && mayFill then
    sign ++ List.replicate (width - sign.length - digits.length) '0' ++ digits
  else pad flags width (sign ++ digits)

def signOf (flags : Text) (negative : Bool) : Text :=
  if negative then ['-'] else if flags.any (· == '+') then ['+']
  else if flags.any (· == ' ') then [' '] else []

/-- A whole number as a slot writes it. -/
def number (flags : Text) (width : Nat) (precision : Option Nat) (kind : Char) (n : Int) : Text :=
  let bits := (n % (Nat.pow 2 64 : Nat)).toNat
  let (sign, digits) : Text × Text :=
    if kind = 'd' ∨ kind = 'i' then (signOf flags (decide (n < 0)), Text.ofNat n.natAbs)
    else
      let base := if kind = 'o' then 8 else if kind = 'u' then 10 else 16
      let lead : Text :=
        if flags.any (· == '#') ∧ bits ≠ 0 then
          if kind = 'o' then ['0'] else if kind = 'u' then [] else ['0', kind]
        else []
      let digits := Nat.toDigits base bits
      (lead, if kind = 'X' then digits.map Char.toUpper else digits)
  match precision with
  | none => padNumber flags width true sign digits
  | some p =>
    let digits := if p = 0 ∧ digits = ['0'] then [] else digits
    padNumber flags width false sign (List.replicate (p - digits.length) '0' ++ digits)

/-- A number with a point as a slot writes it. -/
def ratio (flags : Text) (width : Nat) (precision : Option Nat) (kind : Char) (negative : Bool)
    (r : Decimal.Ratio) : Text :=
  let places := precision.getD 6
  let point := flags.any (· == '#')
  let mark := if kind.isUpper then 'E' else 'e'
  let digits := match kind.toLower with
    | 'e' => r.scientific places point mark
    | 'g' => r.general places point mark
    | _ => r.fixed places point
  padNumber flags width true (signOf flags negative) digits

/-- What has been written so far, the arguments that are left, and how it stands. -/
structure Progress where
  voice : Voice
  /-- The last piece comes first. -/
  out : List Text := []
  args : List Text
  complaints : List Text := []
  stopped : Bool := false
  /-- Whether what stopped it is an error. -/
  failed : Bool := false

def Progress.take (p : Progress) : Text × Progress :=
  (p.args.head?.getD [], { p with args := p.args.drop 1 })

def Progress.put (p : Progress) (s : Text) : Progress := { p with out := s :: p.out }

def Progress.say (p : Progress) : Option Text → Progress
  | some message => { p with complaints := message :: p.complaints }
  | none => p

/-- A width or precision, which may have to be taken from the arguments. -/
def Progress.amount (p : Progress) : Option Amount → Option Int × Progress
  | none => (none, p)
  | some (.given n) => (some n, p)
  | some .argument =>
    let (arg, p) := p.take
    let (n, message) := numberOf p.voice true arg
    (some n, p.say message)

def Progress.fill (p : Progress) (slot : Slot) : Progress :=
  let (width, p) := p.amount slot.width
  let (precision, p) := p.amount slot.precision
  let width := width.getD 0
  let flags := if width < 0 then '-' :: slot.flags else slot.flags
  let precision := precision.bind fun n => if n < 0 then none else some n.toNat
  let kind := slot.kind
  let (arg, p) := p.take
  let cut (s : Text) : Text := match precision with
    | some n => s.take n
    | none => s
  match kind with
  | 's' => p.put (pad flags width.natAbs (cut arg))
  | 'q' => p.put (pad flags width.natAbs
      (cut (if p.voice = .program then shellQuoted arg else requoted arg)))
  | 'b' =>
    let (body, stopped) := (textEscape p.voice).replace arg
    { p.put (pad flags width.natAbs (cut body)) with stopped := stopped }
  | 'c' => p.put (pad flags width.natAbs [arg.headD '\x00'])
  | _ =>
    if ("eEfFgG" : String).toList.contains kind then
      let (negative, r, message) := ratioOf p.voice arg
      (p.say message).put (ratio flags width.natAbs precision kind negative r)
    else
      let (n, message) := numberOf p.voice (kind == 'd' || kind == 'i') arg
      (p.say message).put (number flags width.natAbs precision kind n)

def Progress.write (p : Progress) : Chunk → Progress
  | .text s => p.put s
  | .slot slot => p.fill slot
  | .stop => { p with stopped := true }
  | .wrong message => { p.say (some message) with stopped := true, failed := true }

/-- Writes the pieces of a format once. -/
def Progress.pass (p : Progress) (chunks : List Chunk) : Progress :=
  chunks.foldl (fun p chunk => if p.stopped then p else p.write chunk) p

/-- Writes a format again and again as long as it takes arguments and there are any. -/
def Progress.passes (chunks : List Chunk) : (rounds : Nat) → Progress → Progress
  | 0, p => p
  | rounds + 1, p =>
    let q := p.pass chunks
    if q.stopped || q.args.isEmpty || q.args.length == p.args.length then q
    else Progress.passes chunks rounds q

/-- What comes of printing. -/
structure Rendering where
  out : Text
  complaints : List Text
  /-- The format could not be used up to its end. -/
  failed : Bool
  /-- Arguments that the format has no room for. -/
  excess : List Text

def render (v : Voice) (format : Text) (args : List Text) : Rendering :=
  let chunks := read v (format.length + 1) format
  let p := Progress.passes chunks (args.length + 1) { voice := v, args := args }
  { out := p.out.reverse.flatten, complaints := p.complaints.reverse, failed := p.failed
    excess := if p.stopped then [] else p.args }

end Format

end CompileFail.Script
