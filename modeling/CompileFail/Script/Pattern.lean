import CompileFail.Script.Syntax

/-! Patterns of shell scripts: `*` stands for any text, `?` for any character and brackets for one
of several characters. A quoted character stands for itself. Where groups are understood, a mark
and alternatives in parentheses stand for one of them, or for any number of them. -/

namespace CompileFail.Script

/-- A character and whether it is quoted. -/
structure Glyph where
  char : Char
  quoted : Bool
deriving DecidableEq, Repr

abbrev Pattern := List Glyph

/-- What is special in patterns. -/
structure PatternStyle where
  /-- A caret negates a class as an exclamation mark does. -/
  caret : Bool := false
  groups : Bool := false
deriving DecidableEq, Repr

namespace Pattern

def isActive (g : Glyph) (c : Char) : Bool := g.char == c && !g.quoted

/-- The ranges of the characters of a named class. -/
def classes : List (String × List (Char × Char)) :=
  [(":alnum:]", [('0', '9'), ('A', 'Z'), ('a', 'z')]), (":cntrl:]", [('\x00', '\x1f'), ('\x7f', '\x7f')]),
   (":lower:]", [('a', 'z')]), (":space:]", [('\t', '\r'), (' ', ' ')]),
   (":alpha:]", [('A', 'Z'), ('a', 'z')]), (":digit:]", [('0', '9')]), (":print:]", [(' ', '~')]),
   (":upper:]", [('A', 'Z')]), (":blank:]", [('\t', '\t'), (' ', ' ')]), (":graph:]", [('!', '~')]),
   (":punct:]", [('!', '/'), (':', '@'), ('[', '`'), ('\x7b', '~')]),
   (":xdigit:]", [('0', '9'), ('A', 'F'), ('a', 'f')])]

/-- The class that is named at the start of a text, and the length of its name. -/
def class? (s : Text) : Option (List (Char × Char) × Nat) :=
  (classes.find? fun (name, _) => name.toList.isPrefixOf s).map fun (name, ranges) =>
    (ranges, name.length)

/-- The members of a class as closed ranges, and what stands behind its closing bracket. A bracket
that comes first is a member of the class. -/
def members? : (fuel : Nat) → (first : Bool) → Pattern → Option (List (Char × Char) × Pattern)
  | 0, _, _ => none
  | _, _, [] => none
  | fuel + 1, first, g :: rest =>
    if isActive g ']' && !first then some ([], rest)
    else match if isActive g '[' then class? (rest.map (·.char)) else none with
      | some (ranges, size) =>
        (members? fuel false (rest.drop size)).map fun (more, after) => (ranges ++ more, after)
      | none =>
        match rest with
        | dash :: last :: after =>
          if isActive dash '-' && !isActive last ']' then
            (members? fuel false after).map fun (more, after) => ((g.char, last.char) :: more, after)
          else (members? fuel false rest).map fun (more, after) => ((g.char, g.char) :: more, after)
        | _ => (members? fuel false rest).map fun (more, after) => ((g.char, g.char) :: more, after)

/-- What a pattern asks for first. -/
inductive Demand where
  | anything
  | oneOf (negated : Bool) (ranges : List (Char × Char))
  | exactly (c : Char)

def Demand.accepts (c : Char) : Demand → Bool
  | .anything => true
  | .exactly d => c == d
  | .oneOf negated ranges =>
    (ranges.any fun (low, high) => decide (low ≤ c) && decide (c ≤ high)) != negated

/-- The demand on the next character, and the rest of the pattern. -/
def demand (style : PatternStyle) (g : Glyph) (rest : Pattern) : Demand × Pattern :=
  if isActive g '?' then (.anything, rest)
  else if isActive g '[' then
    let negated := rest.head?.any fun g => isActive g '!' || style.caret && isActive g '^'
    match members? (rest.length + 1) true (if negated then rest.drop 1 else rest) with
    | some (ranges, rest) => (.oneOf negated ranges, rest)
    | none => (.exactly '[', rest)
  else (.exactly g.char, rest)

/-- The alternatives of a group, of which the opening parenthesis has been read, and what stands
behind the closing one. -/
def alternatives? : (depth : Nat) → Pattern → Option (List Pattern × Pattern)
  | _, [] => none
  | depth, g :: rest =>
    if isActive g ')' && depth == 0 then some ([[]], rest)
    else if isActive g '|' && depth == 0 then
      (alternatives? depth rest).map fun (more, after) => ([] :: more, after)
    else
      let depth' := if isActive g '(' then depth + 1 else if isActive g ')' then depth - 1 else depth
      match alternatives? depth' rest with
      | some (first :: more, after) => some ((g :: first) :: more, after)
      | _ => none

/-- The group at the front of a pattern: its mark, its alternatives and what follows. -/
def group? (style : PatternStyle) : Pattern → Option (Char × List Pattern × Pattern)
  | mark :: bracket :: rest =>
    if style.groups && !mark.quoted && isActive bracket '(' &&
        ("?*+@!" : String).toList.contains mark.char then
      (alternatives? 0 rest).map fun (alternatives, after) => (mark.char, alternatives, after)
    else none
  | _ => none

/-- Whether a text fits a pattern; `fuel` is at least the number of characters of both. -/
def fitsWithin (style : PatternStyle) : (fuel : Nat) → Pattern → Text → Bool
  | 0, _, _ => false
  | _, [], s => s.isEmpty
  | fuel + 1, g :: rest, s =>
    match group? style (g :: rest) with
    | some (mark, alternatives, after) =>
      let splits := List.range (s.length + 1)
      let isOne (s : Text) : Bool := alternatives.any fun p => fitsWithin style fuel p s
      let once : Bool := splits.any fun n => isOne (s.take n) && fitsWithin style fuel after (s.drop n)
      let again : Bool := splits.any fun n =>
        n != 0 && isOne (s.take n) && fitsWithin style fuel (g :: rest) (s.drop n)
      match mark with
      | '@' => once
      | '?' => fitsWithin style fuel after s || once
      | '*' => fitsWithin style fuel after s || again
      | '+' => once || again
      | _ => splits.any fun n => !isOne (s.take n) && fitsWithin style fuel after (s.drop n)
    | none =>
      if isActive g '*' then
        fitsWithin style fuel rest s ||
          match s with
          | [] => false
          | _ :: s => fitsWithin style fuel (g :: rest) s
      else match s with
        | [] => false
        | c :: s =>
          let (wanted, rest) := demand style g rest
          wanted.accepts c && fitsWithin style fuel rest s

def fits (style : PatternStyle) (p : Pattern) (s : Text) : Bool :=
  fitsWithin style (2 * p.length + s.length + 1) p s

/-- The text without the part that fits the pattern, if there is such a part. -/
def trim (style : PatternStyle) (kind : Trim) (p : Pattern) (s : Text) : Text :=
  let lengths := List.range (s.length + 1)
  let cut := match kind with
    | .shortestPrefix => lengths.find? fun n => fits style p (s.take n)
    | .longestPrefix => lengths.reverse.find? fun n => fits style p (s.take n)
    | .shortestSuffix => lengths.reverse.find? fun n => fits style p (s.drop n)
    | .longestSuffix => lengths.find? fun n => fits style p (s.drop n)
  match cut, kind with
  | none, _ => s
  | some n, .shortestPrefix | some n, .longestPrefix => s.drop n
  | some n, .shortestSuffix | some n, .longestSuffix => s.take n

/-- The length of the longest part at the front of a text that fits the pattern. -/
def longestFit? (style : PatternStyle) (p : Pattern) (s : Text) : Option Nat :=
  (List.range (s.length + 1)).reverse.find? fun n => fits style p (s.take n)

/-- The text with the longest parts that fit the pattern exchanged: the first one, or all of them
from the front on. -/
def exchangeFrom (style : PatternStyle) (every : Bool) (p : Pattern) (new : Text) :
    (fuel : Nat) → Text → Text
  | 0, s => s
  | fuel + 1, s =>
    match longestFit? style p s with
    | some (n + 1) =>
      new ++ (if every then exchangeFrom style every p new fuel (s.drop (n + 1)) else s.drop (n + 1))
    | _ =>
      match s with
      | [] => []
      | c :: s => c :: exchangeFrom style every p new fuel s

/-- The text with parts that fit a pattern exchanged. -/
def exchange (style : PatternStyle) (kind : Replacing) (p : Pattern) (new s : Text) : Text :=
  match kind with
  | .first => exchangeFrom style false p new (s.length + 1) s
  | .every => exchangeFrom style true p new (s.length + 1) s
  | .atStart =>
    match longestFit? style p s with
    | some n => new ++ s.drop n
    | none => s
  | .atEnd =>
    match (List.range (s.length + 1)).find? fun n => fits style p (s.drop n) with
    | some n => s.take n ++ new
    | none => s

end Pattern

end CompileFail.Script
