import CompileFail.Regex.Search
import CompileFail.Utility.Files

/-! The program `grep`, which finds lines that fit a pattern. -/

namespace CompileFail.Utility.Grep

/-- What the patterns mean. -/
inductive Kind where
  | basic
  | extended
  | fixed
  /-- Extended, with some more letters behind backslashes. -/
  | lettered
deriving DecidableEq

/-- A text as a pattern that it fits alone. -/
def literal (s : Octets) : Octets :=
  s.flatMap fun c => if ("\\[].*^$" : String).toList.contains c then ['\\', c] else [c]

/-- A pattern in which `\d` and the like are written out. -/
def spelledOut : Octets → Octets
  | '\\' :: 'd' :: s => "[0-9]".toList ++ spelledOut s
  | '\\' :: 'D' :: s => "[^0-9]".toList ++ spelledOut s
  | '\\' :: 't' :: s => '\t' :: spelledOut s
  | '\\' :: c :: s => '\\' :: c :: spelledOut s
  | '(' :: '?' :: ':' :: s => '(' :: spelledOut s
  | '*' :: '?' :: s => '*' :: spelledOut s
  | c :: s => c :: spelledOut s
  | [] => []

/-- The expression for some patterns, of which one has to fit. -/
def compile (kind : Kind) (ignoresCase : Bool) (patterns : List Octets) : Except Text Regex :=
  let lines := patterns.flatMap (Text.splitOn '\n')
  match kind with
  | .fixed => Regex.ofText .basic false ignoresCase (("\\|" : Text).intercalate (lines.map literal))
  | .basic => Regex.ofText .basic false ignoresCase (("\\|" : Text).intercalate lines)
  | .extended => Regex.ofText .extended false ignoresCase (['|'].intercalate lines)
  | .lettered => Regex.ofText .extended false ignoresCase (spelledOut (['|'].intercalate lines))

/-- What is said about the name of a class that stands in brackets of its own. -/
def bareClass : Text := "character class syntax is [[:space:]], not [:space:]"

/-- How lines are searched and what is written. -/
structure Options where
  given : Given
  regex : Regex
  /-- The lines to show in front of a find and behind it. -/
  before : Nat
  after : Nat
  most : Option Nat
  named : Bool

def Options.has (o : Options) (c : Char) : Bool := o.given.has c

/-- What lines end with. -/
def Options.ending (o : Options) : Char := if o.has 'z' then '\x00' else '\n'

def isWordChar (c : Char) : Bool := c.isAlphanum || c == '_'

/-- Whether a find is a whole word of a line. -/
def isWord (content : Octets) (f : Regex.Find) : Bool :=
  !((if f.start = 0 then none else content[f.start - 1]?).any isWordChar) &&
    !(content[f.finish]?.any isWordChar)

/-- The next find in a line that is as large as is asked for. -/
def Options.findFrom (o : Options) (line : Octets) : (fuel : Nat) → Nat → Option Regex.Find
  | 0, _ => none
  | fuel + 1, pos =>
    match o.regex.search line pos with
    | none => none
    | some f =>
      if o.has 'x' then
        if f.start = 0 ∧ f.finish = line.length then some f else none
      else if o.has 'w' && !isWord line f then
        if f.start < line.length then o.findFrom line fuel (f.start + 1) else none
      else some f

def Options.selects (o : Options) (line : Octets) : Bool :=
  (o.findFrom line (line.length + 1) 0).isSome != o.has 'v'

/-- The places of all finds in a line that are not empty. -/
def Options.finds (o : Options) (line : Octets) : (fuel : Nat) → Nat → List Regex.Find
  | 0, _ => []
  | fuel + 1, pos =>
    match o.findFrom line (line.length + 1) pos with
    | none => []
    | some f =>
      if f.finish = f.start then
        if f.finish < line.length then o.finds line fuel (f.finish + 1) else []
      else f :: o.finds line fuel f.finish

/-- What stands in front of a line: the name of the file, the number of the line and its offset. -/
def Options.lead (o : Options) (name : Octets) (mark : Char) (number offset : Nat) : Octets :=
  (if o.named then name ++ [mark] else []) ++
    (if o.has 'n' then Text.ofNat number ++ [mark] else []) ++
    (if o.has 'b' then Text.ofNat offset ++ [mark] else [])

/-- A line of a file with its number, its offset and whether it is selected. -/
structure Row where
  text : Octets
  number : Nat
  offset : Nat
  selected : Bool

/-- The rows of a file; no more than `most` of them are selected, and none behind those. -/
def Options.rows (o : Options) (s : Octets) : List Row :=
  let pieces := Text.splitOn o.ending s
  let lines := if pieces.getLast? = some [] then pieces.dropLast else pieces
  let (rows, _, _) := lines.zipIdx.foldl (fun (rows, offset, count) (line, i) =>
    let full := o.most.any (count ≥ ·)
    let selected := !full && o.selects line
    ((Row.mk line (i + 1) offset selected) :: rows, offset + line.length + 1,
      if selected then count + 1 else count)) (([] : List Row), 0, 0)
  rows.reverse

/-- The text for the rows that are selected and those around them. -/
def Options.shown (o : Options) (name : Octets) (rows : List Row) : Octets :=
  let isNear (i : Nat) : Bool := (rows.zipIdx).any fun (row, j) =>
    row.selected && (if j ≤ i then i - j ≤ o.after else j - i ≤ o.before)
  let surrounds := o.before > 0 || o.after > 0
  let picked := if surrounds then rows.zipIdx.filter fun (_, i) => isNear i
    else rows.zipIdx.filter fun (row, _) => row.selected
  (picked.foldl (fun (out, last) (row, i) =>
    let gap : Octets := match last with
      | some j => if surrounds && i > j + 1 then "--\n".toList else []
      | none => []
    let mark := if row.selected then ':' else '-'
    let block :=
      if o.has 'o' then
        if o.has 'v' then []
        else (o.finds row.text (row.text.length + 1) 0).flatMap fun f =>
          o.lead name mark row.number (row.offset + f.start) ++ f.text row.text ++ [o.ending]
      else o.lead name mark row.number row.offset ++ row.text ++ [o.ending]
    (out ++ [gap ++ block], some i)) (([] : List Octets), (none : Option Nat))).1.flatten

/-- Searches a text and says whether a line was selected. -/
def Options.search (o : Options) (isFirst : Bool) (name s : Octets) : Task Bool := do
  let rows := o.rows s
  let count := (rows.filter (·.selected)).length
  let title := if name = ['-'] then "(standard input)".toList else name
  if o.has 'q' then return count > 0
  if o.has 'l' || o.has 'L' then
    if (count > 0) == o.has 'l' then Task.print (title ++ [if o.has 'Z' then '\x00' else '\n'])
    return (count > 0) == o.has 'l'
  if o.has 'c' then
    Task.print ((if o.named then title ++ [':'] else []) ++ Text.ofNat count ++ ['\n'])
  else if s.any (· == '\x00') && !o.has 'a' && !o.has 'z' && count > 0 then
    Task.print ((← read).name ++ (": " : Text) ++ title ++ (": binary file matches\n" : Text))
  else
    let gap : Octets := if !isFirst && count > 0 && (o.before > 0 || o.after > 0) then "--\n" else []
    Task.print (gap ++ o.shown title rows)
  return count > 0

/-- The files below a directory, or the file itself. -/
def filesAt (g : Given) (name : Octets) : Task (List Octets) := do
  let tree ← Task.tree
  match tree.find (Octets.path name) true with
  | .ok (place, .dir) =>
    let files := (tree.part place).filterMap fun (other, entry) =>
      if entry.isFile then some (nameBelow name place other) else none
    let picked (globs : List Octets) (file : Octets) : Bool := globs.any fun glob =>
      ends glob (baseName file)
    let wanted := g.options.filterMap fun (c, value) => if c = '+' then some value else none
    let unwanted := g.options.filterMap fun (c, value) => if c = '!' then some value else none
    return files.filter fun file => (wanted.isEmpty || picked wanted file) && !picked unwanted file
  | _ => return [name]
where
  /-- Whether a name fits a pattern that starts with a star, or is the same. -/
  ends (glob name : Octets) : Bool := match glob with
    | '*' :: ending => ending.isSuffixOf name
    | _ => glob == name

def table : OptTable :=
  .ofLetters "abcEFGhHiIlLnoPqrRsTUvwxyzZe:f:m:A:B:C:d:D:"
    [("text", 'a'), ("count", 'c'), ("extended-regexp", 'E'), ("fixed-strings", 'F'),
      ("basic-regexp", 'G'), ("no-filename", 'h'), ("with-filename", 'H'), ("ignore-case", 'i'),
      ("files-with-matches", 'l'), ("files-without-match", 'L'), ("line-number", 'n'),
      ("only-matching", 'o'), ("perl-regexp", 'P'), ("quiet", 'q'), ("silent", 'q'),
      ("recursive", 'r'), ("no-messages", 's'), ("invert-match", 'v'), ("word-regexp", 'w'),
      ("line-regexp", 'x'), ("null", 'Z'), ("regexp", 'e'), ("file", 'f'), ("max-count", 'm'),
      ("after-context", 'A'), ("before-context", 'B'), ("context", 'C'), ("byte-offset", 'b'),
      ("color", '='), ("colour", '='), ("include", '+'), ("exclude", '!'), ("line-buffered", 'U'),
      ("binary-files", 'D')]

/-- Complains about the way it was called. -/
def failCall {α : Type} (message : Option Octets) : Task α := do
  match message with
  | some message => Task.complain message
  | none => pure ()
  let name := (← read).name
  Task.writeTo 2 (("Usage: " : Text) ++ name ++ (" [OPTION]... PATTERNS [FILE]...\nTry '" : Text) ++
    name ++ (" --help' for more information.\n" : Text))
  Task.exit 2

/-- A number behind a dash asks for so many lines around a find. -/
def withContext (args : List Octets) : List Octets :=
  args.flatMap fun
    | '-' :: c :: more =>
      if (c :: more).all Char.isDigit then ["-C".toList, c :: more] else ['-' :: c :: more]
    | arg => [arg]

def run (usual : Kind) : Task Nat := do
  let args := withContext (← Task.args)
  let g ← match table.read (args.length + 1) args with
    | .ok g => pure g
    | .error wrong => failCall (some wrong.message)
  let amount (c : Char) : Task (Option Nat) := do
    match g.value? c with
    | none => return none
    | some s => match Text.toNat? s with
      | some n => return some n
      | none =>
        Task.fail 2 (if c = 'm' then "invalid max count" else s ++ (": invalid context length argument" : Text))
  let around ← amount 'C'
  let before ← amount 'B'
  let after ← amount 'A'
  let most ← amount 'm'
  let listed ← g.options.filterMapM fun (c, value) => do
    if c = 'e' then return some [value]
    else if c = 'f' then
      match ← Task.contentOf value with
      | .ok s => return some (Octets.lines s)
      | .error e => Task.fail 2 (value ++ (": " : Text) ++ e.brief)
    else return none
  let (patterns, names) ← match listed, g.operands with
    | [], [] => failCall none
    | [], pattern :: names => pure ([pattern], names)
    | _, names => pure (listed.flatten, names)
  let kind := match g.last? ['E', 'F', 'G', 'P'] with
    | some 'E' => Kind.extended
    | some 'F' => .fixed
    | some 'G' => .basic
    | some 'P' => .lettered
    | _ => usual
  let regex ← match compile kind (g.has 'i' || g.has 'y') patterns with
    | .ok r => pure r
    | .error e => Task.fail 2 e
  if regex.remarks.contains .bareClass then Task.fail 2 bareClass
  regex.remarks.forM fun
    | .atStart operator =>
      Task.complain (("warning: " : Text) ++ operator ++ (" at start of expression" : Text))
    | .bareClass => pure ()
  let deep := g.has 'r' || g.has 'R'
  let names :=
    if !names.isEmpty then names else if deep then [] else [['-']]
  let files ← if deep && names.isEmpty then do
      pure ((← filesAt g ['.']).map fun name => name.drop 2)
    else if deep then do
      pure (← names.mapM (filesAt g)).flatten
    else pure names
  let tree ← Task.tree
  let entersDir := deep && names.all fun name => tree.isDir (Octets.path name)
  let o : Options :=
    { given := g, regex := regex
      before := before.getD (around.getD 0), after := after.getD (around.getD 0), most := most
      named := g.last? ['h', 'H'] == some 'H' || !g.has 'h' && (names.length > 1 || entersDir) }
  let o := if patterns.isEmpty then { o with most := some 0 } else o
  let (found, failed) ← files.foldlM (fun (state : Bool × Bool) name => do
    if state.1 && g.has 'q' then return state
    match ← Task.contentOf name with
    | .ok s => do
      let found ← o.search (!state.1) name s
      return (state.1 || found, state.2)
    | .error e => do
      if !g.has 's' then Task.complain (name ++ (": " : Text) ++ e.brief)
      return (state.1, true)) (false, false)
  return if failed && !(found && g.has 'q') then 2 else if found then 0 else 1

def grep : Task Nat := run .basic

end CompileFail.Utility.Grep
