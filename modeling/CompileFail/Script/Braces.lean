import CompileFail.Script.Arithmetic

/-! Braces in words of the larger shell: a word with alternatives in braces stands for several words,
one for each of them, and two numbers or letters in braces for all that lie between. -/

namespace CompileFail.Script.Braces

/-- A word taken apart: its plain characters one by one, and its other pieces. -/
inductive Item where
  | char (c : Char)
  | piece (piece : Piece)

def itemsOf (w : Word) : List Item :=
  w.flatMap fun
    | .chars text false => text.map .char
    | piece => [.piece piece]

def wordOf (items : List Item) : Word :=
  items.foldr (fun item word =>
    match item with
    | .char c => Word.cons c false word
    | .piece piece => piece :: word) []

def isChar (c : Char) : Item → Bool
  | .char d => c == d
  | .piece _ => false

/-- The parts between commas up to the closing brace, and what follows that. -/
def parts? : (depth : Nat) → List Item → Option (List (List Item) × List Item)
  | _, [] => none
  | depth, item :: rest =>
    if isChar '\x7d' item && depth == 0 then some ([[]], rest)
    else if isChar ',' item && depth == 0 then
      (parts? depth rest).map fun (parts, after) => ([] :: parts, after)
    else
      let depth' :=
        if isChar '\x7b' item then depth + 1 else if isChar '\x7d' item then depth - 1 else depth
      match parts? depth' rest with
      | some (first :: parts, after) => some ((item :: first) :: parts, after)
      | _ => none

/-- The texts of a range, of which the ends and the step are given. -/
def range? (words : List Text) : Option (List Text) :=
  let steps (low high : Int) (step : Int) : List Int :=
    let size := max step.natAbs 1
    let count := (high - low).natAbs / size
    (List.range (count + 1)).map fun i =>
      if low ≤ high then low + (i * size : Nat) else low - (i * size : Nat)
  let decimal? (s : Text) : Option Int :=
    match s with
    | '-' :: s => (Text.toNat? s).map fun n => 0 - n
    | '+' :: s => (Text.toNat? s).map fun n => n
    | s => (Text.toNat? s).map fun n => n
  let isPadded (s : Text) : Bool :=
    let digits := s.dropWhile (· == '-')
    digits.length > 1 && digits.head? == some '0'
  let stepOf : List Text → Option Int
    | [] => some 1
    | [s] => decimal? s
    | _ => none
  match words with
  | low :: high :: rest =>
    match stepOf rest, decimal? low, decimal? high, low, high with
    | some step, some a, some b, _, _ =>
      let width := if isPadded low || isPadded high then max low.length high.length else 0
      some ((steps a b step).map fun n =>
        let digits := Text.ofNat n.natAbs
        let sign : Text := if n < 0 then ['-'] else []
        sign ++ List.replicate (width - sign.length - digits.length) '0' ++ digits)
    | some step, _, _, [a], [b] =>
      if a.isAlpha && b.isAlpha then
        some ((steps a.toNat b.toNat step).map fun n => [Char.ofNat n.toNat])
      else none
    | _, _, _, _, _ => none
  | _ => none

/-- The pieces of a text between pairs of dots. -/
def splitDots : Text → List Text
  | '.' :: '.' :: s => [] :: splitDots s
  | c :: s =>
    match splitDots s with
    | first :: rest => (c :: first) :: rest
    | [] => [[c]]
  | [] => [[]]

def textOf? (items : List Item) : Option Text :=
  items.mapM fun
    | .char c => some c
    | .piece _ => none

/-- The words that items stand for; `fuel` is at least their number. -/
def expandItems : (fuel : Nat) → List Item → List (List Item)
  | 0, items => [items]
  | _, [] => [[]]
  | fuel + 1, item :: rest =>
    let literally : List (List Item) := (expandItems fuel rest).map (item :: ·)
    if isChar '\x7b' item then
      match parts? 0 rest with
      | some (part :: more, after) =>
        let choices : Option (List (List Item)) :=
          if more.isEmpty then
            ((textOf? part).bind fun s => range? (splitDots s)).map fun texts =>
              texts.map fun text => text.map .char
          else some ((part :: more).flatMap (expandItems fuel))
        match choices with
        | some choices =>
          let endings := expandItems fuel after
          choices.flatMap fun choice => endings.map (choice ++ ·)
        | none => literally
      | _ => literally
    else literally

/-- The words that a word with braces stands for. -/
def expand (w : Word) : List Word :=
  if w.any fun
    | .chars text false => text.any (· == '\x7b')
    | _ => false
  then
    let items := itemsOf w
    (expandItems (2 * items.length + 2) items).map wordOf
  else [w]

end CompileFail.Script.Braces
