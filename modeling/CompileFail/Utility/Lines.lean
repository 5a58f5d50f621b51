import CompileFail.Utility.Options

/-! Programs that pass text on, line by line: whole, in part, numbered or counted. -/

namespace CompileFail.Utility

/-- The pieces of a text that end with a line feed each, but for the last one. -/
def records (s : Octets) (ending : Char := '\n') : List Octets :=
  match s with
  | [] => []
  | c :: s =>
    if c = ending then [c] :: records s ending
    else match records s ending with
      | [] => [[c]]
      | record :: more => (c :: record) :: more

/-- A character in a visible form. -/
def visible (tabs : Bool) (c : Char) : Octets :=
  let n := c.toNat
  if c = '\n' then [c]
  else if c = '\t' then if tabs then ['^', 'I'] else [c]
  else
    let high : Octets := if n ≥ 128 then ['M', '-'] else []
    let low := n % 128
    high ++ if low < 32 then ['^', Char.ofNat (low + 64)] else if low = 127 then ['^', '?']
      else [Char.ofNat low]

/-- Numbers in front of lines. -/
def numberText (width n : Nat) : Octets := Text.padLeft width (Text.ofNat n) ++ ['\t']

/-- How `cat` shows what it passes on. -/
structure Showing where
  numbers : Bool
  numbersFilled : Bool
  squeezes : Bool
  marksEnds : Bool
  tabs : Bool
  controls : Bool

/-- A line as it is shown; `mid` says whether the end of the line before is missing. -/
def Showing.line (o : Showing) (number : Option Nat) (record : Octets) : Octets :=
  let ended := record.getLast? == some '\n'
  let body := if ended then record.dropLast else record
  let (body, tail) : Octets × Octets :=
    if o.marksEnds && ended && !o.controls && body.getLast? == some '\r' then
      (body.dropLast, ['^', 'M'])
    else (body, [])
  let body := if o.controls then body.flatMap (visible o.tabs)
    else if o.tabs then body.flatMap fun c => if c = '\t' then ['^', 'I'] else [c]
    else body
  (match number with
    | some n => numberText 6 n
    | none => []) ++ body ++ tail ++
    (if ended then (if o.marksEnds then ['$', '\n'] else ['\n']) else [])

def cat : Task Nat := do
  let g ← given (.ofLetters "AbeEnstTuv"
    [("show-all", 'A'), ("number-nonblank", 'b'), ("show-ends", 'E'), ("number", 'n'),
      ("squeeze-blank", 's'), ("show-tabs", 'T'), ("show-nonprinting", 'v')])
  let any (letters : String) : Bool := letters.toList.any g.has
  let o : Showing :=
    { numbers := g.has 'n', numbersFilled := g.has 'b', squeezes := g.has 's'
      marksEnds := any "AeE", tabs := any "AtT", controls := any "Aetv" }
  if !(o.numbers || o.numbersFilled || o.squeezes || o.marksEnds || o.tabs || o.controls) then
    forContents g.operands fun _ s => Task.print s
  else
    let status ← (if g.operands.isEmpty then [['-']] else g.operands).foldlM
      (fun (state : Nat × Octets) name => do
        match ← Task.contentOf name with
        | .ok s => return (state.1, state.2 ++ s)
        | .error e => do
          Task.complain (named name ++ (": " : Text) ++ e.brief)
          return (1, state.2)) (0, [])
    let (out, _, _) := (records status.2).foldl
      (fun (out, n, afterBlank) record =>
        let isBlank := record == ['\n']
        if o.squeezes && isBlank && afterBlank then (out, n, true)
        else
          let counts := if o.numbersFilled then !isBlank else o.numbers
          let shown := o.line (if counts then some (n + 1) else none) record
          (shown :: out, if counts then n + 1 else n, isBlank)) (([] : List Octets), 0, false)
    Task.print out.reverse.flatten
    return status.1

/-- Reverses the order of the records of each file. -/
def tac : Task Nat := do
  let g ← given (.ofLetters "brs:")
  forContents g.operands (fun _ s => Task.print (records s).reverse.flatten) fun name e =>
    match e with
    | .isADirectory => name ++ (": read error: Is a directory" : Text)
    | e => ("failed to open " : Text) ++ inQuotes name ++ (" for reading: " : Text) ++ e.brief

/-- Reverses the characters of each line. -/
def rev : Task Nat := do
  let g ← given (.ofLetters "")
  forContents g.operands (fun _ s => Task.print ((records s).flatMap fun record =>
    if record.getLast? = some '\n' then record.dropLast.reverse ++ ['\n'] else record.reverse))
    fun name e => match e with
      | .isADirectory => name ++ (": Is a directory" : Text)
      | e => ("cannot open " : Text) ++ name ++ (": " : Text) ++ e.brief

/-- How much is wanted, of lines or of bytes, counted from a side. -/
structure Extent where
  bytes : Bool := false
  /-- Counted from the other end than usual. -/
  inverted : Bool := false
  count : Nat := 10

/-- The extent that a text asks for; `sign` is the mark for counting from the other end. -/
def Extent.ofText? (bytes : Bool) (sign : Char) (s : Octets) : Option Extent :=
  let (inverted, digits) := match s with
    | '-' :: rest => (sign == '-', rest)
    | '+' :: rest => (sign == '+', rest)
    | _ => (false, s)
  (sizeOf? digits).map fun n => { bytes := bytes, inverted := inverted, count := n }

/-- Gives the old form of an option, a number behind a dash, its present form. -/
def modernised (args : List Octets) : List Octets :=
  match args with
  | ('-' :: c :: more) :: rest =>
    let digits := (c :: more).takeWhile Char.isDigit
    if digits.isEmpty then args
    else
      let letters := (c :: more).drop digits.length
      let unit : Octets := if letters.any (· == 'c') then ['-', 'c'] else ['-', 'n']
      let others := letters.filter fun c => c != 'c' && c != 'l'
      unit :: digits :: (if others.isEmpty then rest else ('-' :: others) :: rest)
  | _ => args

/-- Runs a task with other arguments. -/
def withArgs {α : Type} (f : List Octets → List Octets) (task : Task α) : Task α := fun p =>
  task { p with args := p.name :: f (p.args.drop 1) }

/-- Prints files with their names in between, if that is wanted. -/
def withHeadings (g : Given) (act : Octets → Octets → Task Unit) : Task Nat := do
  let names := if g.operands.isEmpty then [['-']] else g.operands
  let headed := g.has 'v' || names.length > 1 && !g.has 'q'
  let (status, _) ← names.foldlM (fun (state : Nat × Bool) name => do
    match ← Task.contentOf name with
    | .ok s => do
      if headed then
        let title : Octets := if name = ['-'] then "standard input" else name
        Task.print ((if state.2 then ['\n'] else []) ++ ("==> " : Text) ++ title ++
          (" <==\n" : Text))
      act name s
      return (state.1, true)
    | .error e => do
      match e with
      | .isADirectory => do
        if headed then
          Task.print ((if state.2 then ['\n'] else []) ++ ("==> " : Text) ++ name ++
            (" <==\n" : Text))
        Task.complain (("error reading " : Text) ++ inQuotes name ++ (": " : Text) ++ e.brief)
        return (1, true)
      | _ => do
        Task.complain
          (("cannot open " : Text) ++ inQuotes name ++ (" for reading: " : Text) ++ e.brief)
        return (1, state.2)) (0, false)
  return status

def extentOf (g : Given) (sign : Char) : Task Extent := do
  match g.last? ['n', 'c'] with
  | none => return {}
  | some letter => do
    let s := (g.value? letter).getD []
    match Extent.ofText? (letter == 'c') sign s with
    | some extent => return extent
    | none =>
      Task.fail 1 (("invalid number of " : Text) ++
        (if letter = 'c' then "bytes" else "lines").toList ++ (": " : Text) ++
        inQuotes (if s.head? = some sign then s else s))

def headTable : OptTable :=
  .ofLetters "n:c:qvz" [("lines", 'n'), ("bytes", 'c'), ("quiet", 'q'), ("verbose", 'v')]

/-- Prints the first lines or bytes. -/
def head : Task Nat := withArgs modernised do
  let g ← given headTable
  let extent ← extentOf g '-'
  withHeadings g fun name s => do
    let part :=
      if extent.bytes then s.take (if extent.inverted then s.length - extent.count else extent.count)
      else
        let all := records s (if g.has 'z' then '\x00' else '\n')
        (all.take (if extent.inverted then all.length - extent.count else extent.count)).flatten
    Task.print part
    if name = ['-'] && (← Task.inputIsFile) then Task.leaveInput (s.drop part.length)

def tailTable : OptTable :=
  .ofLetters "n:c:qvzfFs:" [("lines", 'n'), ("bytes", 'c'), ("quiet", 'q'), ("verbose", 'v'),
    ("follow", 'f'), ("pid", 'p')]

/-- Prints the last lines or bytes. -/
def tail : Task Nat := withArgs old do
  let g ← given tailTable
  let extent ← extentOf g '+'
  let status ← withHeadings g fun _ s =>
    let skip (size : Nat) : Nat :=
      if extent.inverted then extent.count - 1 else size - extent.count
    Task.print (if extent.bytes then s.drop (skip s.length)
      else
        let all := records s (if g.has 'z' then '\x00' else '\n')
        (all.drop (skip all.length)).flatten)
  if status != 0 && g.has 'f' && g.operands.length = 1 then Task.complain "no files remaining"
  return status
where
  /-- A number behind a plus sign is an old form too. -/
  old (args : List Octets) : List Octets :=
    match args with
    | ('+' :: c :: more) :: rest =>
      if (c :: more).all Char.isDigit then ['-', 'n'] :: ('+' :: c :: more) :: rest else args
    | _ => modernised args

/-- What is counted in a text. -/
structure Counts where
  lines : Nat := 0
  words : Nat := 0
  chars : Nat := 0
  bytes : Nat := 0
  longest : Nat := 0

def isSpace (c : Char) : Bool :=
  c == ' ' || c == '\t' || c == '\n' || c == '\r' || c == '\x0b' || c == '\x0c'

/-- The words between blanks. -/
def wordsOf (s : Octets) : List Octets :=
  let (current, done) := s.foldl (fun (current, done) c =>
    if isSpace c then ([], if current.isEmpty then done else current.reverse :: done)
    else (c :: current, done)) (([] : Octets), ([] : List Octets))
  (if current.isEmpty then done else current.reverse :: done).reverse

def Counts.ofText (s : Octets) : Counts :=
  { lines := (s.filter (· == '\n')).length
    words := (wordsOf s).length
    chars := s.length
    bytes := s.length
    longest := ((Octets.lines s).map widthOf).foldl max 0 }
where
  /-- How wide a line is when it is shown. -/
  widthOf (line : Octets) : Nat :=
    (line.foldl (fun (column, most) c =>
      let column := if c = '\t' then (column / 8 + 1) * 8
        else if c = '\r' ∨ c = '\x0c' then 0
        else if 32 ≤ c.toNat ∧ c.toNat < 127 then column + 1 else column
      (column, max most column)) (0, 0)).2

def Counts.add (a b : Counts) : Counts :=
  { lines := a.lines + b.lines, words := a.words + b.words, chars := a.chars + b.chars
    bytes := a.bytes + b.bytes, longest := max a.longest b.longest }

/-- The size of a regular file behind a name; the input counts only if it is a file. -/
def regularSize? (name : Octets) : Task (Option Nat) := do
  if name = ['-'] then
    let m ← get
    match (← read).descriptors.get? 0 with
    | some id => return if ← Task.inputIsFile then some (m.unread id).length else none
    | none => return none
  else
    match (← Task.tree).find (Octets.path name) true with
    | .ok (_, .file content _ _) => return some content.size
    | .ok _ => return none
    | .error _ => return some 0

/-- Counts lines, words and bytes. -/
def wc : Task Nat := do
  let g ← given (.ofLetters "clmwL"
    [("bytes", 'c'), ("lines", 'l'), ("chars", 'm'), ("words", 'w'), ("max-line-length", 'L')])
  let usual := g.options.isEmpty
  let columns (c : Counts) : List Nat :=
    (if usual || g.has 'l' then [c.lines] else []) ++
    (if usual || g.has 'w' then [c.words] else []) ++ (if g.has 'm' then [c.chars] else []) ++
    (if usual || g.has 'c' then [c.bytes] else []) ++ (if g.has 'L' then [c.longest] else [])
  let names := if g.operands.isEmpty then [['-']] else g.operands
  let single := (columns {}).length = 1 && names.length = 1
  let sizes ← names.mapM regularSize?
  let sum := (sizes.map (·.getD 0)).foldl (· + ·) 0
  let least := if sizes.any (·.isNone) then 7 else 1
  let width := if single then 1 else max least (Text.ofNat sum).length
  let row (c : Counts) (name : Octets) : Octets :=
    [' '].intercalate ((columns c).map fun n => Text.padLeft width (Text.ofNat n)) ++
      (if name.isEmpty then [] else ' ' :: name) ++ ['\n']
  let (status, total) ← names.foldlM (fun (state : Nat × Counts) name => do
    match ← Task.contentOf name with
    | .ok s => do
      let c := Counts.ofText s
      Task.print (row c (if g.operands.isEmpty then [] else name))
      return (state.1, state.2.add c)
    | .error e => do
      Task.complain (named name ++ (": " : Text) ++ e.brief)
      if e = .isADirectory then Task.print (row {} name)
      return (1, state.2)) (0, {})
  if names.length > 1 then Task.print (row total "total")
  return status

/-- Passes its input on and keeps it in files too. -/
def tee : Task Nat := do
  let g ← given (.ofLetters "aip" [("append", 'a')])
  let s ← Task.input
  Task.print s
  let results ← g.operands.mapM fun name => do
    match (← get).openFile (Octets.path name) (if g.has 'a' then .appending else .writing) with
    | .ok (id, m) => do
      set (m.write id s)
      return true
    | .error e => do
      Task.complain (named name ++ (": " : Text) ++ e.brief)
      return false
  return if results.all id then 0 else 1

/-- Numbers lines, those with something on them or all. -/
def nl : Task Nat := do
  let g ← given (.ofLetters "b:d:f:h:i:l:n:ps:v:w:")
  let width := ((g.value? 'w').bind Text.toNat?).getD 6
  let separator := (g.value? 's').getD ['\t']
  let step := ((g.value? 'i').bind Text.toNat?).getD 1
  let start := ((g.value? 'v').bind Text.toNat?).getD 1
  let style := (g.value? 'b').getD ['t']
  let layout := (g.value? 'n').getD ['r', 'n']
  let names := if g.operands.isEmpty then [['-']] else g.operands
  let contents ← names.mapM fun name => do
    match ← Task.contentOf name with
    | .ok s => return s
    | .error e => Task.fail 1 (named name ++ (": " : Text) ++ e.brief)
  let (out, _) := (Octets.lines contents.flatten).foldl (fun (out, n) line =>
    if style = ['a'] || style = ['t'] && !line.isEmpty then
      let digits := Text.ofNat n
      let number := match String.ofList layout with
        | "ln" => Text.padRight width digits
        | "rz" => List.replicate (width - digits.length) '0' ++ digits
        | _ => Text.padLeft width digits
      (out ++ [number ++ separator ++ line ++ ['\n']], n + step)
    else (out ++ [List.replicate (width + separator.length) ' ' ++ line ++ ['\n']], n))
    (([] : List Octets), start)
  Task.print out.flatten
  return 0

/-- Joins lines of files side by side, or the lines of each file. -/
def paste : Task Nat := do
  let g ← given (.ofLetters "d:sz" [("delimiters", 'd'), ("serial", 's')])
  let marks := delimiters ((g.value? 'd').getD ['\t'])
  let markAt (i : Nat) : Octets := if marks.isEmpty then [] else marks.getD (i % marks.length) []
  let names := if g.operands.isEmpty then [['-']] else g.operands
  let shared := names.filter (· == ['-'])
  let input ← if shared.isEmpty then pure [] else do pure (Octets.lines (← Task.input))
  let (contents, _) ← names.foldlM (fun (state : List (List Octets) × Nat) name => do
    if name = ['-'] then
      let mine := input.zipIdx.filterMap fun (line, i) =>
        if g.has 's' then if state.2 = 0 then some line else none
        else if i % shared.length = state.2 then some line else none
      return (state.1 ++ [mine], state.2 + 1)
    else match ← Task.contentOf name with
      | .ok s => return (state.1 ++ [Octets.lines s], state.2)
      | .error e => Task.fail 1 (named name ++ (": " : Text) ++ e.brief)) ([], 0)
  let glue (parts : List Octets) : Octets :=
    (parts.zipIdx.map fun (part, i) => if i = 0 then part else markAt (i - 1) ++ part).flatten
  if g.has 's' then
    Task.print (Octets.unlines (contents.map glue))
  else
    let height := (contents.map List.length).foldl max 0
    Task.print (Octets.unlines ((List.range height).map fun i =>
      glue (contents.map fun lines => lines.getD i [])))
  return 0
where
  /-- The delimiters in turn; some have a backslash in front. -/
  delimiters : Text → List Octets
    | '\\' :: c :: s =>
      (match c with
        | 'n' => ['\n']
        | 't' => ['\t']
        | '0' => []
        | c => [c]) :: delimiters s
    | c :: s => [c] :: delimiters s
    | [] => []

/-- The column behind a character. -/
def columnAfter (bytes : Bool) (column : Nat) (c : Char) : Nat :=
  if bytes then column + 1
  else match c with
    | '\t' => (column / 8 + 1) * 8
    | '\x08' => column - 1
    | '\r' => 0
    | _ => column + 1

/-- Breaks lines that are too long. -/
def fold : Task Nat := withArgs old do
  let g ← given (.ofLetters "bsw:" [("width", 'w'), ("spaces", 's'), ("bytes", 'b')])
  let width := max 1 (((g.value? 'w').bind Text.toNat?).getD 80)
  forContents g.operands fun _ s =>
    Task.print ((records s).flatMap fun record =>
      let ended := record.getLast? == some '\n'
      let body := if ended then record.dropLast else record
      ['\n'].intercalate (pieces (g.has 'b') (g.has 's') width (body.length + 1) body) ++
        if ended then ['\n'] else [])
where
  /-- How much of a line fits; one character always does. -/
  fitting (bytes : Bool) (width column : Nat) : Octets → Octets
    | [] => []
    | c :: s =>
      let after := columnAfter bytes column c
      if after > width then [] else c :: fitting bytes width after s
  /-- The pieces of a line. -/
  pieces (bytes atBlanks : Bool) (width : Nat) : (fuel : Nat) → Octets → List Octets
    | 0, s => [s]
    | fuel + 1, s =>
      let first := fitting bytes width 0 s
      if first.length = s.length then [s]
      else
        let first := if first.isEmpty then s.take 1 else first
        let upToBlank := (first.reverse.dropWhile fun c => c != ' ' && c != '\t').reverse
        let piece := if atBlanks && !upToBlank.isEmpty then upToBlank else first
        piece :: pieces bytes atBlanks width fuel (s.drop piece.length)
  /-- A number behind a dash is a width. -/
  old (args : List Octets) : List Octets :=
    args.flatMap fun arg => match arg with
      | '-' :: c :: more =>
        if (c :: more).all Char.isDigit then [['-', 'w'], c :: more] else [arg]
      | _ => [arg]

/-- Puts blanks in place of tabs. -/
def expand : Task Nat := do
  let g ← given (.ofLetters "it:" [("tabs", 't'), ("initial", 'i')])
  let width := max 1 (((g.value? 't').bind Text.toNat?).getD 8)
  forContents g.operands fun _ s =>
    Task.print ((s.foldl (fun (out, column) c =>
      if c = '\t' then
        let n := width - column % width
        (List.replicate n ' ' ++ out, column + n)
      else (c :: out, if c = '\n' then 0 else column + 1)) (([] : Octets), 0)).1.reverse)

end CompileFail.Utility
