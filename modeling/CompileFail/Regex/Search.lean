import CompileFail.Regex.Basic

/-! Looking for what a regular expression describes: the find that starts first and, of those that
start there, the longest. All ways to go on are followed side by side, character by character, so
that the work is bounded by the lengths of text and expression. -/

namespace CompileFail

namespace Regex

/-- A step of a compiled expression. -/
inductive Step where
  | oneOf (negated : Bool) (ranges : List (Char × Char))
  | anchor (anchor : Anchor)
  /-- Goes on at either of two places, rather at the first. -/
  | split (first second : Nat)
  | jump (target : Nat)
  /-- Keeps the place as the start or the end of a group. -/
  | mark (slot : Nat)
  | again (number : Nat)
  | accept
deriving Repr, Inhabited

end Regex

/-- A compiled regular expression. -/
structure Regex where
  steps : Array Regex.Step
  groups : Nat
  /-- Letters fit in either case. -/
  ignoreCase : Bool := false
  /-- What is odd about the text that it was read from. -/
  remarks : List Regex.Remark := []

namespace Regex

mutual

/-- The steps of an expression, of which the first one has the number `pos`. -/
def stepsOf (pos : Nat) : Node → List Step
  | .empty => []
  | .oneOf negated ranges => [.oneOf negated ranges]
  | .anchor anchor => [.anchor anchor]
  | .sequence first second =>
    let a := stepsOf pos first
    a ++ stepsOf (pos + a.length) second
  | .either first second =>
    let a := stepsOf (pos + 1) first
    let b := stepsOf (pos + a.length + 2) second
    .split (pos + 1) (pos + a.length + 2) :: a ++ .jump (pos + a.length + b.length + 2) :: b
  | .times least most body => copies pos least most body
  | .group number body =>
    .mark (2 * number) :: stepsOf (pos + 1) body ++ [.mark (2 * number + 1)]
  | .again number => [.again number]

/-- The steps of a repetition. -/
def copies (pos : Nat) (least : Nat) (most : Option Nat) (body : Node) : List Step :=
  let size := (stepsOf pos body).length
  let needed := (List.range least).flatMap fun i => stepsOf (pos + i * size) body
  let next := pos + needed.length
  match most with
  | none =>
    needed ++ .split (next + 1) (next + size + 2) :: stepsOf (next + 1) body ++ [.jump next]
  | some most =>
    let finish := next + (most - least) * (size + 1)
    needed ++ (List.range (most - least)).flatMap fun i =>
      .split (next + i * (size + 1) + 1) finish :: stepsOf (next + i * (size + 1) + 1) body

end

def ofNode (node : Node) (groups : Nat) (ignoreCase : Bool) : Regex :=
  { steps := (stepsOf 0 node ++ [Step.accept]).toArray, groups := groups, ignoreCase := ignoreCase }

/-- The expression that a text writes down. If it is not read strictly, operators at places where they
have nothing to repeat do no harm. -/
def ofText (grammar : Grammar) (strict ignoreCase : Bool) (s : Text) : Except Text Regex := do
  let (node, groups, remarks) ← Parse.whole grammar strict s
  return { ofNode node groups ignoreCase with remarks := remarks }

/-- One way through an expression: the step it is at, how much of a group it has seen again, and the
places it has kept, the latest first. -/
structure Thread where
  step : Nat
  seen : Nat := 0
  marks : List (Nat × Nat) := []

def slot? (marks : List (Nat × Nat)) (slot : Nat) : Option Nat :=
  (marks.find? (·.1 == slot)).map (·.2)

/-- What lies before and behind a place in a text. -/
structure Place where
  pos : Nat
  before : Option Char
  after : Option Char

def Anchor.holds (p : Place) (anchor : Anchor) : Bool :=
  let isWord (c : Option Char) : Bool := c.any isWordChar
  match anchor with
  | .start => p.before.isNone
  | .finish => p.after.isNone
  | .wordStart => !isWord p.before && isWord p.after
  | .wordFinish => isWord p.before && !isWord p.after
  | .wordEdge => isWord p.before != isWord p.after
  | .noWordEdge => isWord p.before == isWord p.after

/-- The ways that are open at a place, in order of preference, and the steps that have been seen. -/
structure Front where
  visited : Array Bool
  threads : List Thread := []
  /-- The way that has come to the end here. -/
  accepted : Option Thread := none

/-- Follows a way up to the next step that needs a character; `fuel` is more than the number of
steps. -/
def follow (r : Regex) (p : Place) : (fuel : Nat) → Thread → Front → Front
  | 0, _, front => front
  | fuel + 1, t, front =>
    if front.visited.getD t.step true then front
    else
      let front := { front with visited := front.visited.setIfInBounds t.step true }
      match r.steps.getD t.step .accept with
      | .jump target => follow r p fuel { t with step := target } front
      | .split first second =>
        follow r p fuel { t with step := second } (follow r p fuel { t with step := first } front)
      | .mark slot =>
        follow r p fuel { t with step := t.step + 1, marks := (slot, p.pos) :: t.marks } front
      | .anchor anchor =>
        if anchor.holds p then follow r p fuel { t with step := t.step + 1 } front else front
      | .again number =>
        match slot? t.marks (2 * number), slot? t.marks (2 * number + 1) with
        | some a, some b =>
          if b ≤ a then follow r p fuel { t with step := t.step + 1 } front
          else { front with threads := t :: front.threads }
        | _, _ => front
      | .accept =>
        if front.accepted.isSome then front else { front with accepted := some t }
      | .oneOf .. => { front with threads := t :: front.threads }

def fits (ignoreCase negated : Bool) (ranges : List (Char × Char)) (c : Char) : Bool :=
  let isIn (c : Char) : Bool := ranges.any fun (low, high) => decide (low ≤ c) && decide (c ≤ high)
  (isIn c || ignoreCase && (isIn c.toLower || isIn c.toUpper)) != negated

/-- Takes all ways one character further. -/
def advance (r : Regex) (whole : Array Char) (c : Char) (p : Place) (threads : List Thread) :
    Front :=
  threads.foldl (fun front t =>
    match r.steps.getD t.step .accept with
    | .oneOf negated ranges =>
      if fits r.ignoreCase negated ranges c then
        follow r p (r.steps.size + 1) { t with step := t.step + 1 } front
      else front
    | .again number =>
      match slot? t.marks (2 * number), slot? t.marks (2 * number + 1) with
      | some a, some b =>
        let d := whole.getD (a + t.seen) '\x00'
        if d = c ∨ r.ignoreCase ∧ d.toLower = c.toLower then
          if a + t.seen + 1 = b then
            follow r p (r.steps.size + 1) { t with step := t.step + 1, seen := 0 } front
          else { front with threads := { t with seen := t.seen + 1 } :: front.threads }
        else front
      | _, _ => front
    | _ => front) { visited := Array.replicate r.steps.size false }

/-- Follows ways through the text behind a place up to where none is left; answers with the last end
that was reached. -/
def run (r : Regex) (whole : Array Char) (best : Option (Nat × Thread)) (pos : Nat)
    (front : Front) : Text → Option (Nat × Thread)
  | [] => (front.accepted.map (pos, ·)).or best
  | c :: s =>
    let best := (front.accepted.map (pos, ·)).or best
    if front.threads.isEmpty then best
    else
      let p : Place := { pos := pos + 1, before := some c, after := s.head? }
      run r whole best (pos + 1) (advance r whole c p front.threads.reverse) s

/-- A find: where it starts and ends, and where its groups do. -/
structure Find where
  start : Nat
  finish : Nat
  groups : List (Option (Nat × Nat))
deriving Repr

/-- The find that starts at a place, if there is one. -/
def findAt (r : Regex) (whole : Array Char) (pos : Nat) (before : Option Char) (s : Text) :
    Option Find :=
  let p : Place := { pos := pos, before := before, after := s.head? }
  let front := follow r p (r.steps.size + 1) { step := 0 }
    { visited := Array.replicate r.steps.size false }
  (run r whole none pos front s).map fun (finish, t) =>
    { start := pos
      finish := finish
      groups := (List.range r.groups).map fun i =>
        match slot? t.marks (2 * (i + 1)), slot? t.marks (2 * (i + 1) + 1) with
        | some a, some b => some (a, b)
        | _, _ => none }

/-- The first find at a place or behind it. -/
def findFrom (r : Regex) (whole : Array Char) (pos : Nat) (before : Option Char) :
    Text → Option Find
  | [] => findAt r whole pos before []
  | c :: s =>
    match findAt r whole pos before (c :: s) with
    | some find => some find
    | none => findFrom r whole (pos + 1) (some c) s

/-- The first find in a text that starts at `pos` or later. -/
def search (r : Regex) (s : Text) (pos : Nat := 0) : Option Find :=
  findFrom r s.toArray pos (if pos = 0 then none else s[pos - 1]?) (s.drop pos)

def isIn (r : Regex) (s : Text) : Bool := (r.search s).isSome

namespace Find

/-- The part of a text that was found. -/
def text (f : Find) (s : Text) : Text := (s.drop f.start).take (f.finish - f.start)

/-- The part of a text that a group matched; the whole find is group 0. -/
def group (f : Find) (s : Text) (number : Nat) : Text :=
  if number = 0 then f.text s
  else match f.groups.getD (number - 1) none with
    | some (a, b) => (s.drop a).take (b - a)
    | none => []

end Find

/-- Exchanges finds from a place on: all from the one with the number `first` on, or only that one.
Behind an empty find one character is left as it is. Answers also with the number of exchanges. -/
def exchange (r : Regex) (s : Text) (new : Find → Text) (first : Nat) (every : Bool) : Text × Nat :=
  go (s.length + 2) 0 1 0 none
where
  /-- Goes on at a place with the find of a number; `last` is where the find before ended. -/
  go : (fuel : Nat) → (pos number changes : Nat) → (last : Option Nat) → Text × Nat
    | 0, pos, _, changes, _ => (s.drop pos, changes)
    | fuel + 1, pos, number, changes, last =>
      match r.search s pos with
      | none => (s.drop pos, changes)
      | some f =>
        let gap := (s.drop pos).take (f.start - pos)
        let isEmpty := f.finish == f.start
        let adjoins := isEmpty && last == some f.start
        let counts := !adjoins && (number == first || every && number > first)
        let put : Text := if counts then new f else f.text s
        let changes := if counts then changes + 1 else changes
        if counts && !every then (gap ++ put ++ s.drop f.finish, changes)
        else if isEmpty then
          match s[f.finish]? with
          | none => (gap ++ put, changes)
          | some c =>
            let (rest, changes) :=
              go fuel (f.finish + 1) (if adjoins then number else number + 1) changes none
            (gap ++ put ++ c :: rest, changes)
        else
          let (rest, changes) := go fuel f.finish (number + 1) changes (some f.finish)
          (gap ++ put ++ rest, changes)

end Regex

end CompileFail
