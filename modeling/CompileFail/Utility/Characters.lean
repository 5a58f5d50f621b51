import CompileFail.Regex.Basic
import CompileFail.Utility.Lines

/-! Programs that work on the characters of a text: they exchange them, cut them out, or write them
as numbers. -/

namespace CompileFail.Utility

/-- An item of a set of characters as `tr` reads it. -/
inductive SetItem where
  | chars (cs : List Char)
  /-- A class of characters by its name. -/
  | kind (name : Text) (cs : List Char)
  /-- A character again and again: so many times, or as often as there is need of it. -/
  | times (c : Char) (n : Nat)

namespace SetItem

/-- The characters of ranges, in order. -/
def ofRanges (ranges : List (Char × Char)) : List Char :=
  ranges.flatMap fun (low, high) =>
    (List.range (high.toNat + 1 - low.toNat)).map fun i => Char.ofNat (low.toNat + i)

/-- A character at the front of a text, which may be written with a backslash. -/
def readChar : Octets → Option (Char × Octets)
  | [] => none
  | ['\\'] => some ('\\', [])
  | '\\' :: c :: s =>
    if '0' ≤ c ∧ c ≤ '7' then
      let digits := ((c :: s).take 3).takeWhile fun c => '0' ≤ c && c ≤ '7'
      let digits :=
        if (Text.leadingDigits 8 3 digits).1 ≥ 256 then digits.take 2 else digits
      some (Char.ofNat (Text.leadingDigits 8 3 digits).1, (c :: s).drop digits.length)
    else
      some (match c with
        | 'a' => '\x07'
        | 'b' => '\x08'
        | 'f' => '\x0c'
        | 'n' => '\n'
        | 'r' => '\r'
        | 't' => '\t'
        | 'v' => '\x0b'
        | c => c, s)
  | c :: s => some (c, s)

/-- A class of characters between brackets and marks, such as colons. -/
def readKind (mark : Char) (s : Octets) : Option (Octets × Octets) :=
  (List.range s.length).findSome? fun i =>
    match s.drop i with
    | c :: ']' :: rest => if c = mark then some (s.take i, rest) else none
    | _ => none

/-- The count behind a star in brackets. -/
def readTimes (s : Octets) : Option (Except Text Nat × Octets) :=
  match Text.splitOnce? ']' s with
  | none => none
  | some (digits, rest) =>
    if digits.isEmpty then some (.ok 0, rest)
    else
      let base := if digits.head? = some '0' then 8 else 10
      let (n, more) := Text.leadingDigits base digits.length digits
      if more.isEmpty then some (.ok n, rest)
      else some (.error (("invalid repeat count '" : Text) ++ digits ++
        ("' in [c*n] construct" : Text)), rest)

/-- The items of a set. -/
def read : (fuel : Nat) → Octets → Except Text (List SetItem)
  | 0, _ => .ok []
  | _, [] => .ok []
  | fuel + 1, s => do
    let plain : Except Text (List SetItem) := do
      match readChar s with
      | none => .ok []
      | some (low, '-' :: rest) =>
        match readChar rest with
        | some (high, after) => do
          if high < low then
            .error (("range-endpoints of '" : Text) ++ [low, '-', high] ++
              ("' are in reverse collating sequence order" : Text))
          else return .chars (ofRanges [(low, high)]) :: (← read fuel after)
        | none => .ok [.chars [low, '-']]
      | some (c, rest) => return .chars [c] :: (← read fuel rest)
    match s with
    | '[' :: ':' :: more =>
      match readKind ':' more with
      | some (name, rest) =>
        match Regex.classRanges? name with
        | some ranges => return .kind name (ofRanges ranges) :: (← read fuel rest)
        | none => .error (("invalid character class '" : Text) ++ name ++ ['\''])
      | none => plain
    | '[' :: '=' :: more =>
      match readKind '=' more with
      | some ([c], rest) => return .chars [c] :: (← read fuel rest)
      | some (name, _) =>
        .error (name ++ (": equivalence class operand must be a single character" : Text))
      | none => plain
    | '[' :: more =>
      match readChar more with
      | some (c, '*' :: rest) =>
        match readTimes rest with
        | some (.ok n, rest) => return .times c n :: (← read fuel rest)
        | some (.error e, _) => .error e
        | none => plain
      | _ => plain
    | _ => plain

/-- The characters of a set; an item without a count fills up to `size`. -/
def expand (size : Nat) (items : List SetItem) : List Char :=
  let known := (items.map fun
    | .chars cs => cs.length
    | .kind _ cs => cs.length
    | .times _ n => n).foldl (· + ·) 0
  items.flatMap fun
    | .chars cs => cs
    | .kind _ cs => cs
    | .times c n => List.replicate (if n = 0 then size - known else n) c

end SetItem

/-- The set that an argument describes. -/
def setOf (s : Octets) : Task (List SetItem) := do
  if s.getLast? = some '\\' && (s.reverse.takeWhile (· == '\\')).length % 2 = 1 then
    Task.complain "warning: an unescaped backslash at end of string is not portable"
  match SetItem.read (s.length + 1) s with
  | .ok items => return items
  | .error e => Task.fail 1 e

/-- Exchanges characters, leaves them out or squeezes runs of them. -/
def tr : Task Nat := do
  let g ← given { OptTable.ofLetters "cCdst"
    [("complement", 'c'), ("delete", 'd'), ("squeeze-repeats", 's'), ("truncate-set1", 't')] with
    ordered := true }
  let deletes := g.has 'd'
  let squeezes := g.has 's'
  let complains (message : Octets) : Task Unit := failUsage 1 message
  match g.operands with
  | [] => complains "missing operand"
  | [a] =>
    if deletes == squeezes then
      complains (("missing operand after " : Text) ++ inQuotes a ++
        (if deletes then "\nTwo strings must be given when both deleting and squeezing repeats."
          else "\nTwo strings must be given when translating.").toList)
  | [_, b] =>
    if deletes && !squeezes then
      complains (("extra operand " : Text) ++ inQuotes b ++
        ("\nOnly one string may be given when deleting without squeezing repeats." : Text))
  | _ :: _ :: c :: _ => complains (("extra operand " : Text) ++ inQuotes c)
  let items ← setOf (g.operands.headD [])
  let others ← (g.operands.drop 1).mapM setOf
  if items.any fun item => match item with
    | .times .. => true
    | _ => false then
    Task.fail 1 "the [c*] repeat construct may not appear in string1"
  let listed := SetItem.expand 0 items
  let complement := g.has 'c' || g.has 'C'
  let first := if complement then
      ((List.range 256).map Char.ofNat).filter fun c => !listed.contains c
    else listed
  let s ← Task.input
  let squeeze (set : List Char) (s : Octets) : Octets :=
    (s.foldl (fun (out : Octets) c =>
      if out.head? == some c && set.contains c then out else c :: out) []).reverse
  match others with
  | [] =>
    Task.print (if deletes then s.filter (!first.contains ·) else squeeze first s)
    return 0
  | second :: _ =>
    let cased (name : Text) : Bool := name == ("upper" : Text) || name == ("lower" : Text)
    let strange := second.any fun item => match item with
      | .kind name _ => !cased name
      | _ => false
    let translates := !deletes
    if translates && strange then
      Task.fail 1 "when translating, the only character classes that may appear in\nstring2 are 'upper' and 'lower'"
    let set := SetItem.expand first.length second
    if translates && set.isEmpty && !g.has 't' then
      Task.fail 1 "when not truncating set1, string2 must be non-empty"
    if !translates then
      Task.print (squeeze set (s.filter (!first.contains ·)))
      return 0
    let filled := if g.has 't' then set
      else set ++ List.replicate (first.length - set.length) (set.getLast?.getD '\x00')
    let table := (first.zip filled).foldl (fun (table : Array Char) (c, d) =>
      table.setIfInBounds c.toNat d) ((List.range 256).map Char.ofNat).toArray
    let out := s.map fun c => table.getD c.toNat c
    Task.print (if squeezes then squeeze set out else out)
    return 0

/-- What `cut` takes: positions from a first to a last one, or to the end. -/
abbrev Ranges := List (Nat × Option Nat)

/-- Whether a position, counted from 1, is in a list of ranges. -/
def Ranges.has (rs : Ranges) (i : Nat) : Bool :=
  rs.any fun (low, high?) => low ≤ i && (high?.map fun high => decide (i ≤ high)).getD true

/-- The ranges that a list describes; `fields` says what is counted. -/
def Ranges.ofText (fields : Bool) (s : Octets) : Except Text Ranges :=
  let pieces := (Text.splitOn ',' s).flatMap fun piece =>
    (Text.splitOn ' ' piece).flatMap (Text.splitOn '\t')
  let zero : Text :=
    if fields then "fields are numbered from 1"
    else "byte/character positions are numbered from 1"
  let bad (s : Octets) : Text :=
    (if fields then "invalid field value " else "invalid byte/character position ").toList ++
      inQuotes s
  let number (s : Octets) : Except Text Nat :=
    match Text.toNat? s with
    | some n => if n = 0 then .error zero else .ok n
    | none =>
      if s.isEmpty then .error zero else .error (bad (s.dropWhile Char.isDigit))
  pieces.mapM fun piece =>
    match Text.splitOnce? '-' piece with
    | none => do
      let n ← number piece
      return (n, some n)
    | some (low, high) => do
      if low.isEmpty && high.isEmpty then throw ("invalid range with no endpoint: -" : Text)
      let first ← if low.isEmpty then pure 1 else number low
      if high.isEmpty then return (first, none)
      let last ← number high
      if last < first then throw ("invalid decreasing range" : Text)
      return (first, some last)

/-- Cuts parts out of lines. -/
def cut : Task Nat := do
  let g ← given (.ofLetters "b:c:d:f:nsz"
    [("bytes", 'b'), ("characters", 'c'), ("delimiter", 'd'), ("fields", 'f'),
      ("only-delimited", 's'), ("zero-terminated", 'z'), ("complement", '!'),
      ("output-delimiter", '>')])
  let lists := g.options.filter fun (c, _) => c == 'b' || c == 'c' || c == 'f'
  let (kind, list) ← match lists with
    | [one] => pure one
    | [] => failUsage 1 "you must specify a list of bytes, characters, or fields"
    | _ => failUsage 1 "only one list may be specified"
  let byFields := kind == 'f'
  let separator ← match g.value? 'd' with
    | none => pure '\t'
    | some [] => pure '\x00'
    | some [c] => pure c
    | some _ => failUsage 1 "the delimiter must be a single character"
  if g.has 'd' && !byFields then
    failUsage 1 "an input delimiter may be specified only when operating on fields"
  if g.has 's' && !byFields then
    failUsage 1 "suppressing non-delimited lines makes sense\n\tonly when operating on fields"
  let ranges ← match Ranges.ofText byFields list with
    | .ok ranges => pure ranges
    | .error e => failUsage 1 e
  let takes (i : Nat) : Bool := ranges.has i != g.has '!'
  let ending := if g.has 'z' then '\x00' else '\n'
  let line (s : Octets) : Option Octets :=
    if byFields then
      if !s.any (· == separator) then if g.has 's' then none else some s
      else
        let parts := (Text.splitOn separator s).zipIdx.filter fun (_, i) => takes (i + 1)
        some (((g.value? '>').getD [separator]).intercalate (parts.map (·.1)))
    else
      let picked := s.zipIdx.filter fun (_, i) => takes (i + 1)
      match g.value? '>' with
      | none => some (picked.map (·.1))
      | some mark =>
        some (picked.zipIdx.flatMap fun ((c, i), n) =>
          if n > 0 && (starts ranges (i + 1) || !takes i) then mark ++ [c] else [c])
  forContents g.operands fun _ s => do
    let pieces := Text.splitOn ending s
    let lines := if pieces.getLast? = some [] then pieces.dropLast else pieces
    Task.print ((lines.filterMap line).flatMap (· ++ [ending]))
where
  /-- Whether a range starts at a position that no other range covers from before. -/
  starts (ranges : Ranges) (i : Nat) : Bool :=
    ranges.any (·.1 == i) && !Ranges.has (ranges.filter (·.1 < i)) i

/-- A way to write a few bytes as a number or a sign. -/
structure DumpStyle where
  size : Nat
  text : List Char → Octets

namespace DumpStyle

def filled (width : Nat) (mark : Char) (s : Octets) : Octets :=
  ' ' :: List.replicate (width - s.length) mark ++ s

/-- The number that bytes stand for, the lowest first. -/
def value (cs : List Char) : Nat := cs.foldr (fun c n => c.toNat + 256 * n) 0

def character (c : Char) : Octets :=
  match c with
  | '\x00' => "\\0"
  | '\x07' => "\\a"
  | '\x08' => "\\b"
  | '\t' => "\\t"
  | '\n' => "\\n"
  | '\x0b' => "\\v"
  | '\x0c' => "\\f"
  | '\r' => "\\r"
  | c =>
    if 32 ≤ c.toNat && c.toNat < 127 then [c]
    else
      let digits := Nat.toDigits 8 c.toNat
      List.replicate (3 - digits.length) '0' ++ digits

/-- The style of a letter and a size. -/
def of (letter : Char) (size : Nat) : Option DumpStyle :=
  let bits := 8 * size
  match letter with
  | 'c' => some ⟨1, fun cs => filled 3 ' ' (character (cs.headD '\x00'))⟩
  | 'x' => some ⟨size, fun cs => filled (2 * size) '0' (Nat.toDigits 16 (value cs))⟩
  | 'o' => some ⟨size, fun cs => filled ((bits + 2) / 3) '0' (Nat.toDigits 8 (value cs))⟩
  | 'u' => some ⟨size, fun cs =>
      filled (Nat.toDigits 10 (Nat.pow 2 bits - 1)).length ' ' (Text.ofNat (value cs))⟩
  | 'd' => some ⟨size, fun cs =>
      let n := value cs
      let digits := if n < Nat.pow 2 (bits - 1) then Text.ofNat n
        else '-' :: Text.ofNat (Nat.pow 2 bits - n)
      filled (Nat.toDigits 10 (Nat.pow 2 (bits - 1))).length.succ ' ' digits⟩
  | _ => none

/-- The style that an argument names. -/
def ofText (s : Octets) : Option DumpStyle :=
  match if s.getLast? = some 'z' then s.dropLast else s with
  | letter :: rest =>
    match rest with
    | [] => of letter (if letter = 'c' then 1 else 4)
    | _ => match Text.toNat? rest with
      | some n => if n = 1 ∨ n = 2 ∨ n = 4 ∨ n = 8 then of letter n else none
      | none => none
  | [] => none

end DumpStyle

/-- Writes bytes as numbers or signs, sixteen in a line. -/
def od : Task Nat := do
  let g ← given (.ofLetters "A:bcdj:N:ost:vw:x"
    [("address-radix", 'A'), ("skip-bytes", 'j'), ("read-bytes", 'N'), ("format", 't')])
  let styles ← g.options.filterMapM fun (c, value) => do
    match c with
    | 't' => match DumpStyle.ofText value with
      | some style => return some style
      | none => Task.fail 1 (("invalid character '" : Text) ++ value.take 1 ++
          ("' in type string " : Text) ++ inQuotes value)
    | 'b' => return DumpStyle.of 'o' 1
    | 'c' => return DumpStyle.of 'c' 1
    | 'd' => return DumpStyle.of 'u' 2
    | 'o' => return DumpStyle.of 'o' 2
    | 's' => return DumpStyle.of 'd' 2
    | 'x' => return DumpStyle.of 'x' 2
    | _ => return none
  let styles := if styles.isEmpty then (DumpStyle.of 'o' 2).toList else styles
  let address (n : Nat) : Octets := match g.value? 'A' with
    | some ['n'] => []
    | some ['d'] => zeros 7 (Text.ofNat n)
    | some ['x'] => zeros 6 (Nat.toDigits 16 n)
    | _ => zeros 7 (Nat.toDigits 8 n)
  let named := !((g.value? 'A') == some ['n'])
  let names := if g.operands.isEmpty then [['-']] else g.operands
  let contents ← names.mapM fun name => do
    match ← Task.contentOf name with
    | .ok s => return (s, true)
    | .error e => do
      Task.complain (name ++ (": " : Text) ++ e.brief)
      return ([], false)
  let skipped := ((g.value? 'j').bind sizeOf?).getD 0
  let s := (contents.flatMap (·.1)).drop skipped
  let s := match (g.value? 'N').bind sizeOf? with
    | some n => s.take n
    | none => s
  let width := max 1 (((g.value? 'w').bind Text.toNat?).getD 16)
  let rows := pieces width (s.length + 1) s
  let out := rows.zipIdx.foldl (fun (state : Octets × Bool) (row, i) =>
    let repeated := i > 0 && row.length = width && rows[i - 1]? == some row && !g.has 'v'
    if repeated then (if state.2 then state.1 else state.1 ++ "*\n".toList, true)
    else
      let block := styles.zipIdx.flatMap fun (style, k) =>
        (if k = 0 then address (skipped + width * i) else if named then List.replicate 7 ' ' else []) ++
        (pieces style.size (row.length + 1) row).flatMap style.text ++ ['\n']
      (state.1 ++ block, false)) (([] : Octets), false)
  if contents.all (!·.2) then return 1
  Task.print (out.1 ++ if named then address (skipped + s.length) ++ ['\n'] else [])
  return if contents.all (·.2) then 0 else 1
where
  zeros (width : Nat) (s : Octets) : Octets := List.replicate (width - s.length) '0' ++ s
  pieces (width : Nat) : (fuel : Nat) → Octets → List Octets
    | 0, _ => []
    | _, [] => []
    | fuel + 1, s => s.take width :: pieces width fuel (s.drop width)

namespace Base64

def alphabet : List Char :=
  "ABCDEFGHIJKLMNOPQRSTUVWXYZabcdefghijklmnopqrstuvwxyz0123456789+/".toList

def sign (n : Nat) : Char := alphabet.getD (n % 64) 'A'

/-- Writes three bytes as four signs. -/
def encode : Octets → Octets
  | a :: b :: c :: s =>
    let n := 65536 * a.toNat + 256 * b.toNat + c.toNat
    sign (n / 262144) :: sign (n / 4096) :: sign (n / 64) :: sign n :: encode s
  | [a, b] =>
    let n := 65536 * a.toNat + 256 * b.toNat
    [sign (n / 262144), sign (n / 4096), sign (n / 64), '=']
  | [a] =>
    let n := 65536 * a.toNat
    [sign (n / 262144), sign (n / 4096), '=', '=']
  | [] => []

/-- The bytes of up to four signs. -/
def bytesOf (signs : List Nat) : Octets :=
  let n := (signs ++ List.replicate (4 - signs.length) 0).foldl (fun n sign => 64 * n + sign) 0
  [n / 65536, n / 256 % 256, n % 256].take (signs.length - 1) |>.map Char.ofNat

/-- Reads bytes from signs up to where they go wrong; says whether they do. -/
def decode : (fuel : Nat) → Octets → Octets × Bool
  | 0, _ => ([], true)
  | _, [] => ([], true)
  | fuel + 1, s =>
    let signs := ((s.take 4).map alphabet.idxOf?).takeWhile (·.isSome) |>.filterMap id
    if signs.length = 4 then
      let (rest, fine) := decode fuel (s.drop 4)
      (bytesOf signs ++ rest, fine)
    else
      let isEnd := 2 ≤ signs.length && s.drop signs.length == List.replicate (4 - signs.length) '='
      (bytesOf signs, isEnd)

end Base64

/-- Writes bytes in 64 signs, or reads them back. -/
def base64 : Task Nat := do
  let g ← given (.ofLetters "diw:" [("decode", 'd'), ("ignore-garbage", 'i'), ("wrap", 'w')])
  match g.operands with
  | _ :: extra :: _ => failUsage 1 (("extra operand " : Text) ++ inQuotes extra)
  | _ => pure ()
  let name := g.operands.headD ['-']
  match ← Task.contentOf name with
  | .error e => Task.fail 1 (named name ++ (": " : Text) ++ e.brief)
  | .ok s =>
    if g.has 'd' then do
      let s := s.filter fun c => c != '\n' && (!g.has 'i' || c == '=' || Base64.alphabet.contains c)
      let (out, fine) := Base64.decode (s.length + 1) s
      Task.print out
      if !fine then Task.fail 1 "invalid input"
      return 0
    else do
      let width := ((g.value? 'w').bind Text.toNat?).getD 76
      let out := Base64.encode s
      Task.print (if width = 0 then out else Octets.unlines (od.pieces width (out.length + 1) out))
      return 0

end CompileFail.Utility
