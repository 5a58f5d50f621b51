import CompileFail.Toml.Value

/-! Values of TOML that are written without quotes and brackets: truth values, numbers, dates and
times. Each is one run of characters, but for a date and a time with a blank between them. -/

namespace CompileFail.Toml

def isScalarChar (c : Char) : Bool :=
  c.isAlphanum || c == '+' || c == '-' || c == '_' || c == '.' || c == ':'

/-- The digits of a number in which single underscores may stand between two digits. -/
def digits? (isDigit : Char → Bool) (s : Text) : Option Text :=
  if (Text.splitOn '_' s).all fun group => !group.isEmpty && group.all isDigit then
    some (s.filter (· != '_'))
  else none

/-- The value of digits in a base up to sixteen. -/
def valueInBase (base : Nat) (digits : Text) : Nat :=
  digits.foldl (fun n c =>
    base * n + (if c.isDigit then c.toNat - '0'.toNat else c.toLower.toNat - 'a'.toNat + 10)) 0

def isHexDigit (c : Char) : Bool :=
  c.isDigit || ('a' ≤ c && c ≤ 'f') || ('A' ≤ c && c ≤ 'F')

/-- Integers have 64 bits, one of them for the sign. -/
def integerLimit : Nat := Nat.pow 2 63

/-- The sign of a number, whether it is negative, and what follows it. -/
def splitSign (s : Text) : Bool × Text :=
  match s with
  | '-' :: rest => (true, rest)
  | '+' :: rest => (false, rest)
  | rest => (false, rest)

/-- Decimal digits without a zero in front, unless it is the only digit. -/
def plainDigits? (s : Text) : Option Text := do
  let digits ← digits? Char.isDigit s
  if digits.head? = some '0' ∧ s.length ≠ 1 then none else some digits

def based? (base : Nat) (isDigit : Char → Bool) (s : Text) : Option Value := do
  let n := valueInBase base (← digits? isDigit s)
  if n < integerLimit then some (.integer n) else none

def integer? (s : Text) : Option Value :=
  match s with
  | '0' :: 'x' :: rest => based? 16 isHexDigit rest
  | '0' :: 'o' :: rest => based? 8 (fun c => '0' ≤ c && c ≤ '7') rest
  | '0' :: 'b' :: rest => based? 2 (fun c => c == '0' || c == '1') rest
  | _ => do
    let (negative, rest) := splitSign s
    let n := valueInBase 10 (← plainDigits? rest)
    if negative then if n ≤ integerLimit then some (.integer (-n)) else none
    else if n < integerLimit then some (.integer n) else none

/-- Whether `n * 10^exponent` is too large for a floating-point number of 64 bits. -/
def overflows (n : Nat) (exponent : Int) : Bool :=
  let size := (Nat.toDigits 10 n).length + exponent
  if n = 0 || size < 300 then false
  else if 320 < size then true
  else
    n * Nat.pow 10 exponent.toNat ≥
      (Nat.pow 2 1024 - Nat.pow 2 970) * Nat.pow 10 (-exponent).toNat

/-- An exponent, of which the mark has been read. -/
def exponent? (s : Text) : Option Int := do
  let (negative, rest) := splitSign s
  let n := valueInBase 10 (← digits? Char.isDigit rest)
  some (if negative then -n else n)

/-- A number with a fraction, an exponent or both. Positive numbers must not overflow. -/
def float? (s : Text) : Option Value := do
  let (negative, rest) := splitSign s
  if rest = ("inf" : Text) ∨ rest = ("nan" : Text) then some (.float s)
  else
    let mantissa := rest.takeWhile fun c => c != 'e' && c != 'E'
    let mark := rest.drop mantissa.length
    let whole := mantissa.takeWhile (· != '.')
    let point := mantissa.drop whole.length
    if mark.isEmpty && point.isEmpty then none
    else
      let wholeDigits ← plainDigits? whole
      let pointDigits ← if point.isEmpty then some [] else digits? Char.isDigit (point.drop 1)
      let exponent ← if mark.isEmpty then some 0 else exponent? (mark.drop 1)
      let n := valueInBase 10 (wholeDigits ++ pointDigits)
      if !negative && overflows n (exponent - pointDigits.length) then none
      else some (.float s)

/-- A number of exactly `width` digits between two bounds, at the start of a text. -/
def field? (width low high : Nat) (s : Text) : Option (Nat × Text) := do
  let n ← Text.toNat? (s.take width)
  if (s.take width).length = width ∧ low ≤ n ∧ n ≤ high then some (n, s.drop width) else none

def mark? (c : Char) (s : Text) : Option Text :=
  if s.head? = some c then some (s.drop 1) else none

def daysInMonth (year month : Nat) : Nat :=
  if month = 2 then
    if year % 4 = 0 ∧ (year % 100 ≠ 0 ∨ year % 400 = 0) then 29 else 28
  else if month = 4 ∨ month = 6 ∨ month = 9 ∨ month = 11 then 30
  else 31

/-- A date at the start of a text. -/
def date? (s : Text) : Option Text := do
  let (year, s) ← field? 4 0 9999 s
  let (month, s) ← field? 2 1 12 (← mark? '-' s)
  let (_, s) ← field? 2 1 (daysInMonth year month) (← mark? '-' s)
  some s

/-- A time of day at the start of a text. A minute may have a second too many, and seconds may
have a fraction. -/
def clock? (s : Text) : Option Text := do
  let (_, s) ← field? 2 0 23 s
  let (_, s) ← field? 2 0 59 (← mark? ':' s)
  let (_, s) ← field? 2 0 60 (← mark? ':' s)
  match s with
  | '.' :: rest =>
    if (rest.takeWhile Char.isDigit).isEmpty then none else some (rest.dropWhile Char.isDigit)
  | _ => some s

/-- Whether a text is a distance from universal time. -/
def isOffset (s : Text) : Bool :=
  match s with
  | ['Z'] | ['z'] => true
  | c :: rest =>
    (c == '+' || c == '-') && (do
      let (_, rest) ← field? 2 0 23 rest
      let (_, rest) ← field? 2 0 59 (← mark? ':' rest)
      if rest.isEmpty then some () else none).isSome
  | [] => false

/-- Whether a text is a time of day that may stand behind a date. -/
def isClockWithOffset (s : Text) : Bool :=
  match clock? s with
  | some rest => rest.isEmpty || isOffset rest
  | none => false

def isDelimiter (c : Char) : Bool := c == 'T' || c == 't' || c == ' '

def isMoment (s : Text) : Bool :=
  match date? s with
  | some [] => true
  | some (c :: rest) => isDelimiter c && isClockWithOffset rest
  | none => clock? s == some []

/-- Reads one run of characters. -/
def scalar? (s : Text) : Option Value :=
  if s = ("true" : Text) then some (.boolean true)
  else if s = ("false" : Text) then some (.boolean false)
  else if isMoment s then some (.moment s)
  else match integer? s with
    | some v => some v
    | none => float? s

/-- A value without quotes and brackets at the start of a text. -/
def readScalar? (s : Text) : Option (Value × Text) :=
  let word := s.takeWhile isScalarChar
  let rest := s.dropWhile isScalarChar
  let next := (rest.drop 1).takeWhile isScalarChar
  if date? word = some [] ∧ rest.head? = some ' ' ∧ isClockWithOffset next then
    some (.moment (word ++ [' '] ++ next), rest.drop (1 + next.length))
  else (scalar? word).map (·, rest)

end CompileFail.Toml
