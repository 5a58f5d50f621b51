import CompileFail.Text.Basic

/-! The shortest decimal that identifies a floating-point number. A finite number of 64 bits is
`m * 2^q`, and a decimal reads back as that number if it lies no farther from it than half way to
its neighbours; the ends of this interval count when `m` is even. The digits are searched on ever
finer decimal grids with exact integers, so nothing is rounded on the way. -/

namespace CompileFail.Decimal

/-- A number's magnitude with the interval that reads back to it, all over one denominator. -/
structure Magnitude where
  value : Nat
  low : Nat
  high : Nat
  denominator : Nat
  /-- Whether the ends of the interval read back. -/
  closed : Bool
deriving DecidableEq, Repr

namespace Magnitude

/-- The magnitude `m * 2^(e - 1075)` of a nonzero number. Below a power of two the neighbour is
half as far away as above. -/
def ofScaled (m e : Nat) : Magnitude :=
  let down := if m = Nat.pow 2 52 ∧ 1 < e then 1 else 2
  let up := Nat.pow 2 (e - 1077)
  { value := 4 * m * up
    low := (4 * m - down) * up
    high := (4 * m + 2) * up
    denominator := Nat.pow 2 (1077 - e)
    closed := m % 2 = 0 }

/-- Whether `n / d` lies in the interval that reads back. -/
def readsBack (x : Magnitude) (n d : Nat) : Bool :=
  if x.closed then x.low * d ≤ n * x.denominator ∧ n * x.denominator ≤ x.high * d
  else x.low * d < n * x.denominator ∧ n * x.denominator < x.high * d

/-- The first digit of a number of 64 bits stands less than this many places behind the point. -/
def placeLimit : Nat := 330

/-- The exponent of the first digit: the greatest `e` with `10^e ≤ x`. -/
def exponent (x : Magnitude) : Int :=
  let whole := x.value / x.denominator
  if 0 < whole then ((Nat.toDigits 10 whole).length : Int) - 1
  else
    let places := (List.range placeLimit).find? fun k => x.denominator ≤ x.value * Nat.pow 10 k
    0 - ((places.getD placeLimit : Nat) : Int)

end Magnitude

/-- A decimal `0.d₁d₂… * 10^(exponent + 1)`, that is, with the first digit at `10^exponent`. -/
structure Digits where
  digits : Text
  exponent : Int
deriving DecidableEq, Repr

/-- The decimal `n * 10^unit`, without zeros at the end. -/
def Digits.ofGrid (n : Nat) (unit : Int) : Digits :=
  let digits := Text.ofNat n
  let kept := (digits.reverse.dropWhile (· == '0')).reverse
  ⟨kept, unit + digits.length - 1⟩

/-- The decimal of the grid of `10^unit` that reads back to `x` and is nearest to it. Of two equally
near ones the even one is taken. -/
def onGrid? (x : Magnitude) (unit : Int) : Option Digits :=
  let num := Nat.pow 10 unit.toNat
  let den := Nat.pow 10 (-unit).toNat
  let below := x.value * den / (x.denominator * num)
  let lowFits := x.readsBack (below * num) den
  let highFits := x.readsBack ((below + 1) * num) den
  let twice := 2 * x.value * den
  let middle := (2 * below + 1) * (x.denominator * num)
  if lowFits && highFits then
    if twice < middle ∨ (twice = middle ∧ below % 2 = 0) then some (.ofGrid below unit)
    else some (.ofGrid (below + 1) unit)
  else if lowFits then some (.ofGrid below unit)
  else if highFits then some (.ofGrid (below + 1) unit)
  else none

/-- As many digits as are ever needed. -/
def digitLimit : Nat := 17

/-- The fewest digits that read back. -/
def shortest (x : Magnitude) : Digits :=
  let first := x.exponent
  let hit? := (List.range digitLimit).findSome? fun k : Nat => onGrid? x (first - k)
  hit?.getD ⟨['0'], 0⟩

/-- Decimals whose first digit stands at these places are written without an exponent. -/
def plainFrom : Int := -5
def plainTo : Int := 15

/-- A decimal as text. Plain ones have at least one digit on either side of the point; the others
have one digit before the point, and no point if that digit is the only one. -/
def Digits.render (d : Digits) : Text :=
  if plainFrom ≤ d.exponent ∧ d.exponent ≤ plainTo then
    if d.exponent < 0 then
      ['0', '.'] ++ List.replicate (-d.exponent - 1).toNat '0' ++ d.digits
    else
      let places := d.exponent.toNat + 1
      let whole := d.digits.take places ++ List.replicate (places - d.digits.length) '0'
      let rest := d.digits.drop places
      whole ++ ['.'] ++ (if rest.isEmpty then ['0'] else rest)
  else
    let rest := d.digits.drop 1
    d.digits.take 1 ++ (if rest.isEmpty then [] else '.' :: rest) ++ ['e'] ++
      (if d.exponent < 0 then ['-'] else ['+']) ++ Text.ofNat d.exponent.natAbs

/-- The text of the number with the given 64 bits. What is no number is `null`. -/
def ofBits (bits : UInt64) : Text :=
  let n := bits.toNat
  let e := n / Nat.pow 2 52 % Nat.pow 2 11
  let fraction := n % Nat.pow 2 52
  let sign : Text := if n / Nat.pow 2 63 = 1 then ['-'] else []
  if e = Nat.pow 2 11 - 1 then "null"
  else if e = 0 ∧ fraction = 0 then sign ++ ("0.0" : Text)
  else if e = 0 then sign ++ (shortest (.ofScaled fraction 1)).render
  else sign ++ (shortest (.ofScaled (fraction + Nat.pow 2 52) e)).render

end CompileFail.Decimal
