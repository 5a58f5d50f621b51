import CompileFail.Text.Basic

/-! Decimals with a given number of places. A number is a quotient of two natural numbers, so that it
is rounded once only, when its digits are counted out; a half goes to the even neighbour. -/

namespace CompileFail.Decimal

/-- The quotient of two numbers. -/
structure Ratio where
  num : Nat
  den : Nat
deriving DecidableEq, Repr

/-- The nearest whole number to `num / den`. -/
def roundQuotient (num den : Nat) : Nat :=
  let q := num / den
  let twice := 2 * (num % den)
  if den < twice ∨ (twice = den ∧ q % 2 = 1) then q + 1 else q

namespace Ratio

def isZero (r : Ratio) : Bool := r.num == 0

/-- `r * base ^ n`. -/
def scale (r : Ratio) (base : Nat) (n : Int) : Ratio :=
  ⟨r.num * Nat.pow base n.toNat, r.den * Nat.pow base (-n).toNat⟩

def round (r : Ratio) : Nat := roundQuotient r.num r.den

/-- How many places behind the point the first digit of a number is looked for. -/
def placeLimit : Nat := 5000

/-- The exponent of the first digit of a nonzero number. -/
def exponent (r : Ratio) : Int :=
  if r.den ≤ r.num then ((Nat.toDigits 10 (r.num / r.den)).length : Int) - 1
  else
    let places := (List.range placeLimit).find? fun k => r.den ≤ r.num * Nat.pow 10 k
    0 - ((places.getD placeLimit : Nat) : Int)

/-- The nearest number with so many binary digits. -/
def withBits (bits : Nat) (r : Ratio) : Ratio :=
  if r.isZero then r
  else
    let guess : Int := (r.num.log2 : Int) - r.den.log2 - bits
    let size (n : Int) : Nat := (r.scale 2 (-n)).round
    let shift := if size guess < Nat.pow 2 bits then guess else guess + 1
    (Ratio.mk (size shift) 1).scale 2 shift

/-- The magnitude of a floating-point number. -/
def ofFloat (x : Float) : Ratio :=
  let n := x.abs.toBits.toNat
  let e := n / Nat.pow 2 52
  let fraction := n % Nat.pow 2 52
  let scaled (m e : Nat) : Ratio := (Ratio.mk m 1).scale 2 ((e : Int) - 1075)
  if e = 0 then scaled fraction 1 else scaled (fraction + Nat.pow 2 52) e

/-- With a number of places behind the point; `point` asks for the point in any case. -/
def fixed (places : Nat) (point : Bool) (r : Ratio) : Text :=
  let digits := Text.ofNat (r.scale 10 places).round
  let digits := List.replicate (places + 1 - digits.length) '0' ++ digits
  let whole := digits.length - places
  digits.take whole ++ (if places = 0 ∧ !point then [] else '.' :: digits.drop whole)

/-- The digits of a number of which one stands before the point, and the exponent. -/
def scientificDigits (places : Nat) (r : Ratio) : Text × Int :=
  if r.isZero then (List.replicate (places + 1) '0', 0)
  else
    let e := r.exponent
    let digits := Text.ofNat (r.scale 10 ((places : Int) - e)).round
    if digits.length > places + 1 then (digits.dropLast, e + 1) else (digits, e)

/-- With one digit before the point, and an exponent of at least two digits. -/
def scientific (places : Nat) (point : Bool) (mark : Char) (r : Ratio) : Text :=
  let (digits, e) := r.scientificDigits places
  digits.take 1 ++ (if places = 0 ∧ !point then [] else '.' :: digits.drop 1) ++
    [mark, if e < 0 then '-' else '+'] ++ Text.twoDigits e.natAbs

/-- Without the zeros at the end of what stands behind a point. -/
def dropZeros (s : Text) : Text :=
  if !s.any (· == '.') then s
  else
    let s := (s.reverse.dropWhile (· == '0')).reverse
    if s.getLast? = some '.' then s.dropLast else s

/-- With a number of digits that count, and with an exponent if that is short of -4 or not less
than this number. Zeros at the end are left out unless `full` is set. -/
def general (digits : Nat) (full : Bool) (mark : Char) (r : Ratio) : Text :=
  let digits := max digits 1
  let (_, e) := r.scientificDigits (digits - 1)
  if -4 ≤ e ∧ e < digits then
    let s := r.fixed ((digits : Int) - 1 - e).toNat full
    if full then s else dropZeros s
  else
    let s := r.scientific (digits - 1) full mark
    if full then s
    else
      let body := s.takeWhile (· != mark)
      dropZeros body ++ s.drop body.length

end Ratio

/-- The number in decimal digits at the front of a text, with a point and an exponent if there are
any, and the rest; `none` if there are no digits. -/
def leadingRatio? (s : Text) : Option (Ratio × Text) :=
  let whole := s.takeWhile Char.isDigit
  let rest := s.drop whole.length
  let (fraction, rest) := match rest with
    | '.' :: after =>
      let fraction := after.takeWhile Char.isDigit
      if whole.isEmpty && fraction.isEmpty then ([], rest) else (fraction, after.drop fraction.length)
    | _ => ([], rest)
  if whole.isEmpty && fraction.isEmpty then none
  else
    let mantissa := (whole ++ fraction).foldl (fun n c => 10 * n + (c.toNat - '0'.toNat)) 0
    let exponent (sign : Int) (s : Text) : Option (Int × Text) :=
      let digits := s.takeWhile Char.isDigit
      (Text.toNat? digits).map fun n => (sign * (min n 5000 : Nat), s.drop digits.length)
    let found := match rest with
      | e :: '-' :: after => if e = 'e' ∨ e = 'E' then exponent (-1) after else none
      | e :: '+' :: after => if e = 'e' ∨ e = 'E' then exponent 1 after else none
      | e :: after => if e = 'e' ∨ e = 'E' then exponent 1 after else none
      | [] => none
    let (e, rest) := found.getD (0, rest)
    some ((Ratio.mk mantissa 1).scale 10 (e - fraction.length), rest)

end CompileFail.Decimal
