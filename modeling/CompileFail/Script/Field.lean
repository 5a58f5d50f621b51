import CompileFail.Script.Pattern

/-! Fields are the words that a command gets to see. Where a word holds the value of a variable
without quotes, the value falls apart at separators. -/

namespace CompileFail.Script

/-- What an expanded word consists of. -/
inductive Mark where
  /-- A character; `loose` says that it may separate fields. -/
  | char (c : Char) (quoted loose : Bool)
  /-- Here is a field, even if it stays empty. -/
  | field
  /-- One field ends and another begins. -/
  | gap
deriving DecidableEq, Repr

namespace Mark

/-- The marks of a value. -/
def ofValue (quoted : Bool) (s : Text) : List Mark :=
  (if quoted then [.field] else []) ++ s.map fun c => .char c quoted !quoted

/-- The marks of written text. -/
def ofText (quoted : Bool) (s : Text) : List Mark :=
  (if quoted then [.field] else []) ++ s.map fun c => .char c quoted false

/-- The marks of several values, each a field of its own. -/
def ofValues (quoted : Bool) (values : List Text) : List Mark :=
  [gap].intercalate (values.map (ofValue quoted))

/-- Text that stands in for a value falls apart like one. -/
def loosen : Mark → Mark
  | .char c false _ => .char c false true
  | mark => mark

/-- The characters where a word is one field in any case. -/
def glyphs (marks : List Mark) : List Glyph :=
  marks.filterMap fun
    | .char c quoted _ => some ⟨c, quoted⟩
    | .gap => some ⟨' ', true⟩
    | .field => none

/-- Fields so far, the one that is being put together, and whether blanks ended the last one. -/
structure Splitting where
  done : List Pattern := []
  current : Option Pattern := none
  afterBlank : Bool := false

def Splitting.close (s : Splitting) : Splitting :=
  match s.current with
  | some word => { s with done := s.done ++ [word], current := none }
  | none => s

def Splitting.add (separators : Text) (s : Splitting) : Mark → Splitting
  | .field => { s with current := some (s.current.getD []) }
  | .gap => { s.close with afterBlank := false }
  | .char c quoted loose =>
    if loose && decide (c ∈ separators) then
      if c = ' ' ∨ c = '\t' ∨ c = '\n' then
        { s.close with afterBlank := s.afterBlank || s.current.isSome }
      else if s.afterBlank then { s with afterBlank := false }
      else { s with done := s.done ++ [s.current.getD []], current := none }
    else { s with current := some (s.current.getD [] ++ [⟨c, quoted⟩]), afterBlank := false }

/-- The fields of a word. Blanks that separate fields count once and not at the ends; any other
separator ends a field even if that is empty. -/
def fields (separators : Text) (marks : List Mark) : List Pattern :=
  (marks.foldl (Splitting.add separators) {}).close.done

/-- The fields of a line for a number of variables: the last one takes what is left over, without
the blanks that separate fields at its end, nor what ends it if that is all. -/
def lineFields (separators : Text) : (count : Nat) → List Glyph → List Text
  | 0, _ => []
  | count + 1, line =>
    let isSeparator (g : Glyph) : Bool := !g.quoted && separators.any (· == g.char)
    let isBlank (g : Glyph) : Bool :=
      isSeparator g && (g.char == ' ' || g.char == '\t' || g.char == '\n')
    let line := line.dropWhile isBlank
    let head := line.takeWhile (!isSeparator ·)
    let rest := (line.drop head.length).dropWhile isBlank
    let rest := if rest.head?.any isSeparator then (rest.drop 1).dropWhile isBlank else rest
    if count = 0 then
      let all := if rest.isEmpty then head else (line.reverse.dropWhile isBlank).reverse
      [all.map (·.char)]
    else head.map (·.char) :: lineFields separators count rest

end Mark

end CompileFail.Script
