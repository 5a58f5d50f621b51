import CompileFail.Decimal.Places
import CompileFail.Regex.Search
import CompileFail.Script.Format
import CompileFail.Utility.Options

/-! Programs that calculate: values of expressions and sequences of numbers. -/

namespace CompileFail.Utility

/-! Expressions of which each argument is a word. A value is a text; it is a number if it is written
like one. -/

namespace Expression

/-- What is left of the words, and the word that was taken last. -/
structure Words where
  rest : List Octets
  last : Octets

abbrev Reading := StateT Words (Except Octets)

def fail {α : Type} (message : Octets) : Reading α := throw message

def wrong {α : Type} (message : Octets) : Reading α := fail (("syntax error: " : Text) ++ message)

/-- The whole number that a value is, if it is one. -/
def number? (s : Octets) : Option Int :=
  match s with
  | '-' :: digits => (Text.toNat? digits).map fun n => -(n : Int)
  | _ => (Text.toNat? s).map fun n => (n : Int)

def ofInt (n : Int) : Octets := if n < 0 then '-' :: Text.ofNat n.natAbs else Text.ofNat n.natAbs

/-- Whether a value counts as false: it is empty, or all of its digits are zeros. -/
def isNull (s : Octets) : Bool :=
  match s with
  | [] => true
  | '-' :: s => !s.isEmpty && s.all (· == '0')
  | s => s.all (· == '0')

/-- Takes the next word if it is one of some. -/
def accept? (words : List String) : Reading (Option Octets) := do
  match (← get).rest with
  | word :: rest =>
    if words.any (·.toList == word) then do
      set (Words.mk rest word)
      return some word
    else return none
  | [] => return none

/-- The next word, which must be there. -/
def next : Reading Octets := do
  let w ← get
  match w.rest with
  | word :: rest => do
    set (Words.mk rest word)
    return word
  | [] => wrong (("missing argument after " : Text) ++ '\'' :: w.last ++ ['\''])

def arithmetic (op a b : Octets) : Reading Octets := do
  match number? a, number? b with
  | some m, some n =>
    match String.ofList op with
    | "+" => return ofInt (m + n)
    | "-" => return ofInt (m - n)
    | "*" => return ofInt (m * n)
    | _ =>
      if n = 0 then fail "division by zero"
      else return ofInt (if op = ['/'] then m.tdiv n else m.tmod n)
  | _, _ => fail "non-integer argument"

def holds (op a b : Octets) : Bool :=
  let order : Ordering := match number? a, number? b with
    | some m, some n => compare m n
    | _, _ => if a < b then .lt else if b < a then .gt else .eq
  match String.ofList op with
  | "<" => order == .lt
  | "<=" => order != .gt
  | "=" | "==" => order == .eq
  | "!=" => order != .eq
  | ">=" => order != .lt
  | _ => order == .gt

/-- Matches the front of a text: answers with the first group, or with the length of the match. -/
def matched (s pattern : Octets) : Reading Octets := do
  match Regex.ofText .basic true false (("\\(" : Text) ++ pattern ++ ("\\)" : Text)) with
  | .error _ =>
    match Regex.ofText .basic true false pattern with
    | .error e => fail e
    | .ok _ => return ['0']
  | .ok _ =>
    match Regex.ofText .basic true false pattern with
    | .error e => fail e
    | .ok r =>
      let found := (r.findAt s.toArray 0 none s)
      if r.groups > 0 then return (found.map (·.group s 1)).getD []
      else return Text.ofNat ((found.map (·.finish)).getD 0)

/-- Part of a text from a position on. -/
def part (s position length : Octets) : Octets :=
  match number? position, number? length with
  | some p, some n => if p ≤ 0 ∨ n ≤ 0 then [] else (s.drop (p.toNat - 1)).take n.toNat
  | _, _ => []

/-- The levels of operators from the loosest to the tightest. -/
def levels : List (List String) :=
  [["|"], ["&"], ["<", "<=", "=", "==", "!=", ">=", ">"], ["+", "-"], ["*", "/", "%"], [":"]]

/-- Applies an operator; `live` is false where the value does not matter. -/
def apply (live : Bool) (op a b : Octets) : Reading Octets := do
  match String.ofList op with
  | "|" => return if !isNull a then a else if !isNull b then b else ['0']
  | "&" => return if isNull a || isNull b then ['0'] else a
  | ":" => if live then matched a b else return a
  | "+" | "-" | "*" | "/" | "%" => if live then arithmetic op a b else return a
  | _ => return if holds op a b then ['1'] else ['0']

/-- The value of an operand; `inner` reads an expression in parentheses. -/
def operand (inner : Reading Octets) : (fuel : Nat) → Reading Octets
  | 0 => next
  | fuel + 1 => do
    let word ← next
    match String.ofList word with
    | "(" => do
      let value ← inner
      let w ← get
      match w.rest with
      | [')'] :: rest => do
        set (Words.mk rest [')'])
        return value
      | other :: _ => wrong (("expecting ')' instead of '" : Text) ++ other ++ ['\''])
      | [] => wrong (("expecting ')' after '" : Text) ++ w.last ++ ['\''])
    | ")" => wrong "unexpected ')'"
    | "+" => next
    | "length" => do
      let s ← operand inner fuel
      return Text.ofNat s.length
    | "match" => do
      let s ← operand inner fuel
      let pattern ← operand inner fuel
      matched s pattern
    | "index" => do
      let s ← operand inner fuel
      let wanted ← operand inner fuel
      return Text.ofNat (((s.findIdx? fun c => wanted.any (· == c)).map (· + 1)).getD 0)
    | "substr" => do
      let s ← operand inner fuel
      let position ← operand inner fuel
      let length ← operand inner fuel
      return part s position length
    | _ => return word

/-- Reads operators of a level with their right sides. -/
def more (words : List String) (side : Bool → Reading Octets) (live : Bool) :
    (fuel : Nat) → Octets → Reading Octets
  | 0, value => return value
  | fuel + 1, value => do
    match ← accept? words with
    | none => return value
    | some op => do
      let needed := match String.ofList op with
        | "|" => live && isNull value
        | "&" => live && !isNull value
        | _ => live
      let right ← side needed
      more words side live fuel (← apply live op value right)

/-- Reads an expression with operators of some levels. -/
def atLevel (inner : Bool → Reading Octets) (fuel : Nat) :
    List (List String) → Bool → Reading Octets
  | [], live => operand (inner live) fuel
  | words :: tighter, live => do
    let value ← atLevel inner fuel tighter live
    more words (atLevel inner fuel tighter) live fuel value

/-- Reads an expression that is nested at most `depth` deep. -/
def value : (depth : Nat) → (fuel : Nat) → Bool → Reading Octets
  | 0, _, _ => next
  | depth + 1, fuel, live => atLevel (value depth fuel) fuel levels live

/-- The value of words, or what is wrong with them. -/
def eval (words : List Octets) : Except Octets Octets := do
  let size := words.length + 1
  let (v, w) ← (value size size true).run (Words.mk words [])
  match w.rest with
  | word :: _ => .error (("syntax error: unexpected argument '" : Text) ++ word ++ ['\''])
  | [] => .ok v

end Expression

/-- Prints the value of an expression. -/
def expr : Task Nat := do
  let args ← Task.args
  let words := if args.head? = some ['-', '-'] then args.drop 1 else args
  if words.isEmpty then failUsage 2 "missing operand"
  match Expression.eval words with
  | .error message => Task.fail 2 message
  | .ok value => do
    Task.print (value ++ ['\n'])
    return if Expression.isNull value then 1 else 0

/-- A number in decimal digits: its sign, its places behind the point, and how long it is written. -/
structure Decimalised where
  negative : Bool
  ratio : Decimal.Ratio
  places : Nat
  width : Nat

namespace Decimalised

def ofText? (s : Octets) : Option Decimalised :=
  let s := s.dropWhile fun c => c == ' ' || c == '\t' || c == '\n'
  let (negative, body) := match s with
    | '-' :: s => (true, s)
    | '+' :: s => (false, s)
    | s => (false, s)
  if ("0x" : Text).isPrefixOf (Text.asciiLower body) && body.length > 2 then
    match Text.leadingDigits 16 body.length (body.drop 2) with
    | (n, []) => some ⟨negative, ⟨n, 1⟩, 0, s.length⟩
    | _ => none
  else match Decimal.leadingRatio? body with
    | some (r, []) => some ⟨negative, r, placesOf body, s.length⟩
    | _ => none
where
  /-- How many places a number is written with. -/
  placesOf (s : Octets) : Nat :=
    let mantissa := s.takeWhile fun c => c != 'e' && c != 'E'
    let digits := ((mantissa.dropWhile (· != '.')).drop 1).length
    match s.drop (mantissa.length + 1) with
    | '-' :: e => digits + (Text.toNat? e).getD 0
    | '+' :: e => digits - (Text.toNat? e).getD 0
    | e => digits - (Text.toNat? e).getD 0

/-- The number in units of the last of so many places. -/
def units (d : Decimalised) (places : Nat) : Int :=
  let n : Int := (d.ratio.num * Nat.pow 10 places / d.ratio.den : Nat)
  if d.negative then -n else n

end Decimalised

/-- A whole number of units with its point put in. -/
def withPoint (places : Nat) (n : Int) : Octets :=
  (if n < 0 then ['-'] else []) ++ (Decimal.Ratio.mk n.natAbs (Nat.pow 10 places)).fixed places false

def seqTable : OptTable :=
  { OptTable.ofLetters "f:s:w" [("format", 'f'), ("separator", 's'), ("equal-width", 'w')] with
    ordered := true }

/-- Prints a sequence of numbers. -/
def seq : Task Nat := withNumbers do
  let g ← given seqTable
  let numbers ← g.operands.mapM fun s => do
    match Decimalised.ofText? s with
    | some d => return d
    | none => failUsage 1 (("invalid floating point argument: " : Text) ++ inQuotes s)
  let one : Decimalised := ⟨false, ⟨1, 1⟩, 0, 1⟩
  let (first, step, last) ← match numbers with
    | [] => failUsage 1 "missing operand"
    | [c] => pure (one, one, c)
    | [a, c] => pure (a, one, c)
    | [a, b, c] => pure (a, b, c)
    | _ => failUsage 1 (("extra operand " : Text) ++ inQuotes (g.operands.getD 3 []))
  if step.ratio.isZero then
    failUsage 1 (("invalid Zero increment value: " : Text) ++ inQuotes (g.operands.getD 1 []))
  match g.value? 'f' with
  | some format => checkFormat format
  | none => pure ()
  let places := max first.places (max step.places last.places)
  let shown := max first.places step.places
  let start := first.units places
  let jump := step.units places
  let stop := last.units places
  let count : Nat :=
    if jump > 0 then (if start > stop then 0 else ((stop - start) / jump).toNat + 1)
    else if start < stop then 0 else ((start - stop) / (-jump)).toNat + 1
  let widthOf (d : Decimalised) : Nat :=
    d.width + shown - d.places + (if d.places = 0 ∧ shown > 0 then 1 else 0) -
      (if d.places > 0 ∧ shown = 0 then 1 else 0)
  let width := if g.has 'w' then max (widthOf first) (widthOf last) else 0
  let write (i : Nat) : Octets :=
    let n := start + jump * (i : Int)
    let drop : Int := (Nat.pow 10 (places - shown) : Nat)
    let s := withPoint shown (if n < 0 then -((-n) / drop) else n / drop)
    match g.value? 'f' with
    | some format => (Script.Format.render .program format [withPoint places n]).out
    | none =>
      match s with
      | '-' :: digits => '-' :: List.replicate (width - s.length) '0' ++ digits
      | digits => List.replicate (width - s.length) '0' ++ digits
  let separator := (g.value? 's').getD ['\n']
  if count > 0 then
    Task.print (separator.intercalate ((List.range count).map write) ++ ['\n'])
  return 0
where
  /-- Numbers below zero are no options. -/
  withNumbers (task : Task Nat) : Task Nat := fun p =>
    let isNumber (s : Octets) : Bool := match s with
      | '-' :: c :: _ => c.isDigit || c == '.'
      | _ => false
    let args := p.args.drop 1
    let front := args.takeWhile fun s => !isNumber s && s != ['-', '-']
    match args.drop front.length with
    | word :: _ =>
      let isFirst := match OptTable.read seqTable (front.length + 1) front with
        | .ok g => g.operands.isEmpty
        | .error _ => false
      if isNumber word && isFirst then
        task { p with args := p.name :: front ++ ['-', '-'] :: args.drop front.length }
      else task p
    | [] => task p
  /-- A format has to have one place for a number with a point. -/
  checkFormat (format : Octets) : Task Unit := do
    let chunks := Script.Format.read .program (format.length + 1) format
    let slots := chunks.filterMap fun
      | .slot slot => some slot.kind
      | _ => none
    match slots with
    | [] => Task.fail 1 (("format " : Text) ++ inQuotes format ++ (" has no % directive" : Text))
    | [kind] =>
      if !("aAeEfFgG" : String).toList.contains kind then
        Task.fail 1 (("format " : Text) ++ inQuotes format ++ (" has unknown %" : Text) ++ [kind] ++
          (" directive" : Text))
    | _ => Task.fail 1 (("format " : Text) ++ inQuotes format ++ (" has too many % directives" : Text))

end CompileFail.Utility
