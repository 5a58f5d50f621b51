import CompileFail.Script.Format
import CompileFail.Utility.Awk.Syntax

/-! The values of `awk`: texts and numbers, and how they are written. -/

namespace CompileFail.Utility.Awk

inductive Value where
  | unset
  | num (x : Float)
  | str (s : Octets)
  /-- A text that came from outside; it is a number too if it looks like one. -/
  | input (s : Octets)

instance : Inhabited Value := ⟨.unset⟩

def isSpace (c : Char) : Bool := c == ' ' || c == '\t' || c == '\n' || c == '\r'

/-- The number that all of a text is, blanks apart. -/
def wholeNumber? (s : Octets) : Option Float :=
  let body := ((s.dropWhile isSpace).reverse.dropWhile isSpace).reverse
  match leadingNumber? body with
  | some (x, []) => some x
  | _ => none

/-- The whole number that a float is or lies above, toward zero. -/
def truncated (x : Float) : Int :=
  let r := Decimal.Ratio.ofFloat x
  let n : Int := (r.num / r.den : Nat)
  if x < 0 then -n else n

/-- The texts for what is no number. -/
def strange? (x : Float) : Option Octets :=
  if x.isNaN then some (if x.toBits ≥ 0x8000000000000000 then "-nan" else "nan").toList
  else if x.isInf then some (if x < 0 then "-inf" else "inf").toList
  else none

/-- Puts values in place of the marks of a format. Answers also with whether there were enough of
them; if not, the text ends where one was missing. -/
def fill (toText : Value → Octets) (toNumber : Value → Float) :
    (fuel : Nat) → Octets → List Value → Octets × Bool
  | 0, _, _ => ([], true)
  | _, [], _ => ([], true)
  | fuel + 1, '%' :: '%' :: s, args =>
    let (rest, enough) := fill toText toNumber fuel s args
    ('%' :: rest, enough)
  | fuel + 1, '%' :: s, args =>
    match Script.Format.readSlot .program s with
    | (.slot slot, rest) =>
      let amount (a : Option Script.Format.Amount) (args : List Value) :
          Option (Option Int × List Value) :=
        match a, args with
        | none, _ => some (none, args)
        | some (.given n), _ => some (some n, args)
        | some .argument, v :: args => some (some (truncated (toNumber v)), args)
        | some .argument, [] => none
      let taken := do
        let (width, args) ← amount slot.width args
        let (precision, args) ← amount slot.precision args
        match args with
        | [] => none
        | v :: args => some (width.getD 0, precision, v, args)
      match taken with
      | none => ([], false)
      | some (width, precision, v, args) =>
        let flags := if width < 0 then '-' :: slot.flags else slot.flags
        let precision := precision.bind fun n => if n < 0 then none else some n.toNat
        let text := slotText toText toNumber flags width.natAbs precision slot.kind v
        let (rest, enough) := fill toText toNumber fuel rest args
        (text ++ rest, enough)
    | _ =>
      let (rest, enough) := fill toText toNumber fuel s args
      ('%' :: rest, enough)
  | fuel + 1, c :: s, args =>
    let (rest, enough) := fill toText toNumber fuel s args
    (c :: rest, enough)
where
  /-- A value as one mark asks for it. -/
  slotText (toText : Value → Octets) (toNumber : Value → Float) (flags : Text) (width : Nat)
      (precision : Option Nat) (kind : Char) (v : Value) : Octets :=
    let pad := Script.Format.pad flags width
    match kind with
    | 's' =>
      let t := toText v
      pad (match precision with
        | some n => t.take n
        | none => t)
    | 'c' =>
      let code (x : Float) : Octets := [Char.ofNat ((truncated x).toNat % 256)]
      pad (match v with
        | .num x => code x
        | .input s => ((wholeNumber? s).map code).getD ((toText v).take 1)
        | _ => (toText v).take 1)
    | kind =>
      let x := toNumber v
      match strange? x with
      | some s => pad s
      | none =>
        if ("eEfFgG" : String).toList.contains kind then
          Script.Format.ratio flags width precision kind (x.toBits ≥ 0x8000000000000000)
            (Decimal.Ratio.ofFloat x)
        else Script.Format.number flags width precision kind (truncated x)

namespace Value

def toNumber : Value → Float
  | .unset => 0
  | .num x => x
  | .str s | .input s => ((leadingNumber? (s.dropWhile isSpace)).map (·.1)).getD 0

/-- A number as text: whole numbers in all digits, others in a format. -/
def numberText (format : Octets) (x : Float) : Octets :=
  match strange? x with
  | some s => s
  | none =>
    let n := truncated x
    if n.natAbs < 9223372036854775807 ∧ Float.ofInt n == x then
      if n < 0 then '-' :: Text.ofNat n.natAbs else Text.ofNat n.natAbs
    else if format = "%.6g".toList then
      (if x < 0 then ['-'] else []) ++ (Decimal.Ratio.ofFloat x).general 6 false 'e'
    else (fill (fun _ => []) (fun _ => x) (format.length + 1) format [.num x]).1

def toText (format : Octets) : Value → Octets
  | .unset => []
  | .num x => numberText format x
  | .str s | .input s => s

/-- The number that a value is for comparisons, if it is one. -/
def asNumber? : Value → Option Float
  | .unset => some 0
  | .num x => some x
  | .str _ => none
  | .input s => wholeNumber? s

def isTrue : Value → Bool
  | .unset => false
  | .num x => x != 0
  | .str s => !s.isEmpty
  | .input s => match wholeNumber? s with
    | some x => x != 0
    | none => !s.isEmpty

def ofBool (b : Bool) : Value := .num (if b then 1 else 0)

def compare (format : Octets) (op : String) (a b : Value) : Bool :=
  let bothNumbers := match a, b with
    | .unset, .unset => some (0, 0)
    | _, _ => match a.asNumber?, b.asNumber? with
      | some x, some y => some (x, y)
      | _, _ => none
  match bothNumbers with
  | some (x, y) =>
    match op with
    | "<" => x < y
    | "<=" => x ≤ y
    | "==" => x == y
    | "!=" => x != y
    | ">=" => y ≤ x
    | _ => y < x
  | none =>
    let s := a.toText format
    let t := b.toText format
    match op with
    | "<" => s < t
    | "<=" => !decide (t < s)
    | "==" => s == t
    | "!=" => s != t
    | ">=" => !decide (s < t)
    | _ => t < s

end Value

/-- The remainder of a division toward zero. -/
def remainder (x y : Float) : Float :=
  if y == 0 || x.isNaN || y.isNaN || x.isInf then 0 / 0
  else if y.isInf then x
  else
    let a := Decimal.Ratio.ofFloat x
    let b := Decimal.Ratio.ofFloat y
    let n := a.num * b.den % (b.num * a.den)
    let d := a.den * b.den
    let r := Float.ofNat n / Float.ofNat d
    if x < 0 then -r else r

def arithmetic (op : Char) (x y : Float) : Float :=
  match op with
  | '+' => x + y
  | '-' => x - y
  | '*' => x * y
  | '/' => x / y
  | '%' => remainder x y
  | _ => x.pow y

end CompileFail.Utility.Awk
