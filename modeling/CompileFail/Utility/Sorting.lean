import CompileFail.Decimal.Places
import CompileFail.Utility.Lines

/-! Programs that bring lines into an order, and programs for lines that are in order. -/

namespace CompileFail.Utility

/-- Whether a text stands before another one or is the same, byte by byte. -/
def notAfter (s t : Octets) : Bool := !decide (t < s)

/-- The part of a line that a comparison looks at, and how. -/
structure SortKey where
  /-- Where the key starts: a field and a character in it, both counted from 1. -/
  field : Nat := 1
  char : Nat := 1
  /-- The last field and the last character in it; 0 stands for the end of the field. -/
  last : Option (Nat × Nat) := none
  /-- The letters of the options for the comparison. -/
  flags : Text := []
  skipsAtStart : Bool := false
  skipsAtEnd : Bool := false

namespace SortKey

def isBlank (c : Char) : Bool := c == ' ' || c == '\t' || c == '\n'

/-- What is left of a line behind a number of fields. -/
def dropFields (separator : Option Char) : Nat → Octets → Octets
  | 0, s => s
  | n + 1, s =>
    match separator with
    | some c => dropFields separator n ((s.dropWhile (· != c)).drop 1)
    | none => dropFields separator n ((s.dropWhile isBlank).dropWhile (!isBlank ·))

/-- How long the line is up to the end of a number of fields. -/
def upToField (separator : Option Char) (n : Nat) (s : Octets) : Nat :=
  match separator with
  | none => s.length - (dropFields none n s).length
  | some c =>
    match n with
    | 0 => 0
    | n + 1 =>
      let rest := dropFields separator n s
      s.length - rest.length + (rest.takeWhile (· != c)).length

/-- The key of a line. -/
def of (separator : Option Char) (k : SortKey) (s : Octets) : Octets :=
  let rest := dropFields separator (k.field - 1) s
  let rest := if k.skipsAtStart then rest.dropWhile isBlank else rest
  let rest := rest.drop (k.char - 1)
  let start := s.length - rest.length
  match k.last with
  | none => rest
  | some (field, char) =>
    let finish :=
      if char = 0 then upToField separator field s
      else
        let onward := dropFields separator (field - 1) s
        let onward := if k.skipsAtEnd then onward.dropWhile isBlank else onward
        s.length - (onward.drop char).length
    rest.take (finish - start)

def has (k : SortKey) (c : Char) : Bool := k.flags.any (· == c)

/-- The number at the start of a text, as a whole number and the count of its places. -/
def number (s : Octets) : Int × Nat :=
  let (negative, s) := match s.dropWhile isBlank with
    | '-' :: s => (true, s)
    | s => (false, s)
  let whole := s.takeWhile Char.isDigit
  let fraction := match s.drop whole.length with
    | '.' :: s => s.takeWhile Char.isDigit
    | _ => []
  let n : Int := (Text.leadingDigits 10 (whole ++ fraction).length (whole ++ fraction)).1
  (if negative then -n else n, fraction.length)

def compareNumbers (a b : Int × Nat) : Ordering :=
  compare (a.1 * (Nat.pow 10 b.2 : Nat)) (b.1 * (Nat.pow 10 a.2 : Nat))

/-- The rank of the letter for a unit behind a number. -/
def unitRank (s : Octets) : Nat :=
  let s := s.dropWhile fun c => isBlank c || c == '-' || c == '.' || c.isDigit
  match s.head? with
  | some c => (" KMGTPEZY".toList.idxOf? (if c = 'k' then 'K' else c)).getD 0
  | none => 0

/-- A number with a point and an exponent; what is no number comes first. -/
def general (s : Octets) : Option Decimal.Ratio × Bool :=
  let (negative, s) := match s.dropWhile isBlank with
    | '-' :: s => (true, s)
    | '+' :: s => (false, s)
    | s => (false, s)
  ((Decimal.leadingRatio? s).map (·.1), negative)

def compareGeneral (a b : Octets) : Ordering :=
  match general a, general b with
  | (none, _), (none, _) => .eq
  | (none, _), _ => .lt
  | _, (none, _) => .gt
  | (some x, negX), (some y, negY) =>
    let signed (r : Decimal.Ratio) (negative : Bool) : Int := if negative then -r.num else r.num
    compare (signed x negX * y.den) (signed y negY * x.den)

def monthRank (s : Octets) : Nat :=
  let name := ((s.dropWhile isBlank).take 3).map Char.toUpper
  let months := ["JAN", "FEB", "MAR", "APR", "MAY", "JUN", "JUL", "AUG", "SEP", "OCT", "NOV", "DEC"]
  match months.idxOf? (String.ofList name) with
  | some i => i + 1
  | none => 0

/-- Compares numbers in texts by value and all else by character; `fuel` is more than the length of
the texts. -/
def compareVersions : (fuel : Nat) → Octets → Octets → Ordering
  | 0, _, _ => .eq
  | fuel + 1, a, b =>
    let textA := a.takeWhile (!Char.isDigit ·)
    let textB := b.takeWhile (!Char.isDigit ·)
    match compareTexts textA textB with
    | .eq =>
      let a := a.drop textA.length
      let b := b.drop textB.length
      if a.isEmpty && b.isEmpty then .eq
      else
        let digitsA := a.takeWhile Char.isDigit
        let digitsB := b.takeWhile Char.isDigit
        match compare (number digitsA).1 (number digitsB).1 with
        | .eq => compareVersions fuel (a.drop digitsA.length) (b.drop digitsB.length)
        | order => order
    | order => order
where
  /-- Letters come before other characters, and a tilde before the end. -/
  rank (c : Char) : Int :=
    if c = '~' then -1 else if c.isAlpha then c.toNat else c.toNat + 256
  compareTexts : Octets → Octets → Ordering
    | [], [] => .eq
    | [], c :: _ => compare 0 (rank c)
    | c :: _, [] => compare (rank c) 0
    | c :: a, d :: b =>
      match compare (rank c) (rank d) with
      | .eq => compareTexts a b
      | order => order

/-- Compares the keys of two lines. -/
def compareKeys (separator : Option Char) (k : SortKey) (s t : Octets) : Ordering :=
  let a := k.of separator s
  let b := k.of separator t
  let order :=
    if k.has 'n' then compareNumbers (number a) (number b)
    else if k.has 'g' then compareGeneral a b
    else if k.has 'h' then
      let sign (s : Octets) : Int := if (number s).1 < 0 then -1 else 1
      if (number a).1 = 0 ∨ (number b).1 = 0 ∨ sign a ≠ sign b then
        compareNumbers (number a) (number b)
      else
        match compare (sign a * unitRank a) (sign b * unitRank b) with
        | .eq => compareNumbers (number a) (number b)
        | order => order
    else if k.has 'M' then compare (monthRank a) (monthRank b)
    else if k.has 'V' then compareVersions (a.length + b.length + 1) a b
    else
      let seen (s : Octets) : Octets :=
        let s := if k.has 'd' then s.filter fun c => isBlank c || c.isAlphanum else s
        let s := if k.has 'i' then s.filter fun c => 32 ≤ c.toNat && c.toNat < 127 else s
        if k.has 'f' then s.map Char.toUpper else s
      let a := seen a
      let b := seen b
      if a < b then .lt else if b < a then .gt else .eq
  if k.has 'r' then order.swap else order

/-- Reads a field and a character in it, with letters behind them. -/
def readPosition (first : Bool) (s : Octets) : Except Text (Nat × Nat × Text × Octets) := do
  let whole := s
  let digits := s.takeWhile Char.isDigit
  let s := s.drop digits.length
  if digits.isEmpty then
    throw ((if first then "invalid number at field start: invalid count at start of "
      else "invalid number after ',': invalid count at start of ").toList ++ '\'' :: whole ++ ['\''])
  let field := (Text.toNat? digits).getD 0
  let (char, s) ← match s with
    | '.' :: s =>
      let digits := s.takeWhile Char.isDigit
      if digits.isEmpty then
        throw (("invalid number after '.': invalid count at start of '" : Text) ++ s ++ ['\''])
      else pure ((Text.toNat? digits).getD 0, s.drop digits.length)
    | s => pure (if first then 1 else 0, s)
  let letters := s.takeWhile fun c => ("bdfghiMnRrV" : String).toList.contains c
  return (field, char, letters, s.drop letters.length)

/-- The key that an argument describes. -/
def ofText (s : Octets) : Except Text SortKey := do
  let spec := '\'' :: s ++ ['\'']
  let (field, char, letters, rest) ← readPosition true s
  if field = 0 then throw (("field number is zero: invalid field specification " : Text) ++ spec)
  if char = 0 then throw (("character offset is zero: invalid field specification " : Text) ++ spec)
  let key : SortKey :=
    { field := field, char := char, flags := letters.filter (· != 'b')
      skipsAtStart := letters.any (· == 'b') }
  match rest with
  | [] => return key
  | ',' :: rest => do
    let (field, char, more, rest) ← readPosition false rest
    if field = 0 then throw (("field number is zero: invalid field specification " : Text) ++ spec)
    if !rest.isEmpty then
      throw (("stray character in field spec: invalid field specification " : Text) ++ spec)
    return { key with
      last := some (field, char), flags := key.flags ++ more.filter (· != 'b')
      skipsAtEnd := more.any (· == 'b') }
  | _ => throw (("stray character in field spec: invalid field specification " : Text) ++ spec)

end SortKey

/-- The records of a text between ends of a kind. -/
def piecesOf (ending : Char) (s : Octets) : List Octets :=
  let pieces := Text.splitOn ending s
  if pieces.getLast? = some [] then pieces.dropLast else pieces

/-- Puts the same end behind each record. -/
def endAll (ending : Char) (lines : List Octets) : Octets := lines.flatMap (· ++ [ending])

/-- Drops the lines that are the same as the line before. -/
def dropRepeated (same : Octets → Octets → Bool) : List Octets → List Octets
  | a :: b :: rest =>
    if same a b then dropRepeated same (a :: rest) else a :: dropRepeated same (b :: rest)
  | lines => lines
termination_by lines => lines.length

def sortTable : OptTable :=
  { OptTable.ofLetters "bcCdfghik:mMno:RrsS:t:T:uVz"
      [("ignore-leading-blanks", 'b'), ("dictionary-order", 'd'), ("ignore-case", 'f'),
        ("general-numeric-sort", 'g'), ("human-numeric-sort", 'h'), ("ignore-nonprinting", 'i'),
        ("key", 'k'), ("merge", 'm'), ("month-sort", 'M'), ("numeric-sort", 'n'), ("output", 'o'),
        ("random-sort", 'R'), ("reverse", 'r'), ("stable", 's'), ("buffer-size", 'S'),
        ("field-separator", 't'), ("temporary-directory", 'T'), ("unique", 'u'),
        ("version-sort", 'V'), ("zero-terminated", 'z'), ("parallel", 'P'), ("check", 'c')] with
    code := 2 }

/-- The keys that options ask for, those without letters of their own with the general ones. -/
def sortKeys (g : Given) : Task (List SortKey) := do
  let flags := g.options.filterMap fun (c, _) =>
    if ("dfghiMnRrV" : String).toList.contains c then some c else none
  let keys ← g.options.filterMapM fun (c, value) => do
    if c = 'k' then
      match SortKey.ofText value with
      | .ok key =>
        return some (if key.flags.isEmpty && !key.skipsAtStart && !key.skipsAtEnd then
          { key with flags := flags, skipsAtStart := g.has 'b', skipsAtEnd := g.has 'b' } else key)
      | .error message => Task.fail 2 message
    else return none
  if keys.isEmpty && (g.has 'b' || flags.any (· != 'r')) then
    return [{ flags := flags, skipsAtStart := g.has 'b' }]
  else return keys

def separatorOf (g : Given) : Task (Option Char) := do
  match g.value? 't' with
  | none => return none
  | some [] => Task.fail 2 "empty tab"
  | some ['\\', '0'] => return some '\x00'
  | some [c] => return some c
  | some s => Task.fail 2 (("multi-character tab " : Text) ++ inQuotes s)

/-- Sorts lines, or says whether they are sorted. -/
def sort : Task Nat := do
  let g ← given sortTable
  let keys ← sortKeys g
  let separator ← separatorOf g
  let ending := if g.has 'z' then '\x00' else '\n'
  let names := if g.operands.isEmpty then [['-']] else g.operands
  let checks := g.has 'c' || g.has 'C'
  match names.drop 1 with
  | extra :: _ =>
    if checks then Task.fail 2 (("extra operand " : Text) ++ inQuotes extra ++ (" not allowed with -" : Text) ++
      [if g.has 'c' then 'c' else 'C'])
  | [] => pure ()
  let contents ← names.mapM fun name => do
    match ← Task.contentOf name with
    | .ok s => return piecesOf ending s
    | .error .isADirectory => Task.fail 2 (("read failed: " : Text) ++ named name ++ (": Is a directory" : Text))
    | .error e => Task.fail 2 (("cannot read: " : Text) ++ named name ++ (": " : Text) ++ e.brief)
  let compareAll (a b : Octets) : Ordering :=
    keys.foldl (fun order key => order.then (key.compareKeys separator a b)) .eq
  let order (a b : Octets) : Ordering :=
    if !keys.isEmpty && (g.has 's' || g.has 'u') then compareAll a b
    else
      let bytes : Ordering := if a < b then .lt else if b < a then .gt else .eq
      (compareAll a b).then (if g.has 'r' then bytes.swap else bytes)
  let lines := contents.flatten
  if checks then
    let isBad (a b : Octets) : Bool := match order a b with
      | .gt => true
      | .eq => g.has 'u'
      | .lt => false
    match ((lines.zip (lines.drop 1)).zipIdx.find? fun ((a, b), _) => isBad a b) with
    | none => return 0
    | some ((_, b), i) => do
      if g.has 'C' then return 1
      Task.fail 1 (names.headD [] ++ (":" : Text) ++ Text.ofNat (i + 2) ++ (": disorder: " : Text) ++ b)
  else
    let sorted := lines.mergeSort fun a b => order a b != .gt
    let sorted := if g.has 'u' then dropRepeated (fun a b => order a b == .eq) sorted else sorted
    let out := endAll ending sorted
    match g.value? 'o' with
    | none => Task.print out
    | some name => do
      match ← Task.change (·.store (Octets.path name) (.ofBytes out.toBytes)) with
      | none => pure ()
      | some e => Task.fail 2 (("open failed: " : Text) ++ named name ++ (": " : Text) ++ e.brief)
    return 0

/-- Groups of neighbours that are the same. -/
def groupsOf (same : Octets → Octets → Bool) (lines : List Octets) : List (List Octets) :=
  lines.foldr (fun line groups =>
    match groups with
    | (next :: group) :: rest =>
      if same line next then (line :: next :: group) :: rest else [line] :: groups
    | _ => [line] :: groups) []

/-- Drops lines that are the same as the line before, or counts them. -/
def uniq : Task Nat := do
  let g ← given (.ofLetters "cdDf:is:uw:z"
    [("count", 'c'), ("repeated", 'd'), ("all-repeated", 'D'), ("skip-fields", 'f'),
      ("ignore-case", 'i'), ("skip-chars", 's'), ("unique", 'u'), ("check-chars", 'w'),
      ("zero-terminated", 'z')])
  match g.operands with
  | _ :: _ :: extra :: _ => failUsage 1 (("extra operand " : Text) ++ inQuotes extra)
  | _ => pure ()
  let amount (c : Char) (what : String) : Task (Option Nat) := do
    match g.value? c with
    | none => return none
    | some s => match Text.toNat? s with
      | some n => return some n
      | none => Task.fail 1 (s ++ (": invalid number of " : Text) ++ what.toList)
  let fields ← amount 'f' "fields to skip"
  let chars ← amount 's' "bytes to skip"
  let width ← amount 'w' "bytes to compare"
  let key (line : Octets) : Octets :=
    let rest := (SortKey.dropFields none (fields.getD 0) line).drop (chars.getD 0)
    let rest := match width with
      | some n => rest.take n
      | none => rest
    if g.has 'i' then Text.asciiLower rest else rest
  let name := g.operands.headD ['-']
  let content ← match ← Task.contentOf name with
    | .ok s => pure s
    | .error .isADirectory => Task.fail 1 (("error reading " : Text) ++ inQuotes name ++ (": Is a directory" : Text))
    | .error e => Task.fail 1 (named name ++ (": " : Text) ++ e.brief)
  let ending := if g.has 'z' then '\x00' else '\n'
  let groups := groupsOf (fun a b => key a == key b) (piecesOf ending content)
  let wanted (size : Nat) : Bool :=
    if g.has 'u' then size == 1 && !g.has 'd' else size > 1 || !(g.has 'd' || g.has 'D')
  let lines := (groups.filter (wanted ·.length)).flatMap fun group =>
    let lines := if g.has 'D' then group else group.take 1
    lines.map fun line =>
      (if g.has 'c' then Text.padLeft 7 (Text.ofNat group.length) ++ [' '] else []) ++ line
  let out := endAll ending lines
  match g.operands with
  | _ :: target :: _ => do
    match ← Task.change (·.store (Octets.path target) (.ofBytes out.toBytes)) with
    | none => return 0
    | some e => Task.fail 1 (named target ++ (": " : Text) ++ e.brief)
  | _ => do
    Task.print out
    return 0

/-- A line in one of two files, or in both. -/
inductive Side where
  | first
  | second
  | both
deriving DecidableEq

/-- Brings the lines of two sorted files together. -/
def sidesOf : (fuel : Nat) → List Octets → List Octets → List (Side × Octets)
  | 0, _, _ => []
  | _, as, [] => as.map (Side.first, ·)
  | _, [], bs => bs.map (Side.second, ·)
  | fuel + 1, a :: as, b :: bs =>
    if a < b then (.first, a) :: sidesOf fuel as (b :: bs)
    else if b < a then (.second, b) :: sidesOf fuel (a :: as) bs
    else (.both, a) :: sidesOf fuel as bs

/-- The lines of a file that a program cannot do without. -/
def linesOf (code : Nat) (name : Octets) : Task (List Octets) := do
  match ← Task.contentOf name with
  | .ok s => return Octets.lines s
  | .error e => Task.fail code (named name ++ (": " : Text) ++ e.brief)

/-- Shows in columns which lines two sorted files have in common. -/
def comm : Task Nat := do
  let g ← given (.ofLetters "123z")
  let (first, second) ← match g.operands with
    | [a, b] => pure (a, b)
    | _ :: _ :: extra :: _ => failUsage 1 (("extra operand " : Text) ++ inQuotes extra)
    | few => failMissing few
  let as ← linesOf 1 first
  let bs ← linesOf 1 second
  let sides := sidesOf (as.length + bs.length + 1) as bs
  Task.print (sides.flatMap fun (side, line) =>
    let tabs (n : Nat) : Octets := List.replicate n '\t'
    let put (n : Nat) : Octets := tabs n ++ line ++ ['\n']
    let one := if g.has '1' then 0 else 1
    let two := if g.has '2' then 0 else 1
    match side with
    | .first => if g.has '1' then [] else put 0
    | .second => if g.has '2' then [] else put one
    | .both => if g.has '3' then [] else put (one + two))
  let unsorted (lines : List Octets) : Bool := (lines.zip (lines.drop 1)).any fun (a, b) => b < a
  let say (number : String) (lines : List Octets) : Task Bool := do
    if unsorted lines && sides.any (·.1 != .both) then do
      Task.complain (("file " : Text) ++ number.toList ++ (" is not in sorted order" : Text))
      return true
    else return false
  let badFirst ← say "1" as
  let badSecond ← say "2" bs
  if badFirst || badSecond then Task.fail 1 "input is not in sorted order"
  return 0

end CompileFail.Utility
