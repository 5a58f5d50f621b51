import CompileFail.Utility.Files
import CompileFail.Utility.Sed.Program

/-! The stream editor at work: each line in turn is put into the pattern space, the commands are
carried out on it, and what is left is printed. -/

namespace CompileFail.Utility.Sed

/-- A line of the input. -/
structure Line where
  text : Octets
  /-- Whether there is an end of line behind it. -/
  ended : Bool
  file : Octets

/-- How far a command is in its range of lines. -/
inductive Range where
  | outside
  | untilBound
  | untilLine (n : Nat)
  | closed
deriving Inhabited

/-- What is written behind the line at the end of a cycle. -/
inductive Queued where
  | text (s : Octets)
  | file (name : Octets)

structure State where
  tree : FileTree
  quiet : Bool
  /-- What separates lines. -/
  ending : Char
  space : Octets := []
  hold : Octets := []
  ended : Bool := true
  file : Octets := []
  rest : List Line := []
  number : Nat := 0
  replaced : Bool := false
  queue : List Queued := []
  ranges : Array Range
  /-- The expression that was used last. -/
  regex : Option Regex := none
  /-- What was written, the last part first, to the output and to files. -/
  out : List Octets := []
  /-- The last line that was written has no end yet. -/
  open_ : Bool := false
  files : List (Octets × Octets) := []
  /-- How much has been read of files that are read line by line. -/
  taken : List (Octets × Nat) := []
  code : Nat := 0
  stopped : Bool := false
  /-- What went wrong in the end. -/
  problem : Option Octets := none

namespace State

def write (s : State) (text : Octets) : State :=
  if text.isEmpty then s
  else { s with out := text :: (if s.open_ then [s.ending] :: s.out else s.out), open_ := false }

/-- Writes a line, whose end may be missing. -/
def writeLine (s : State) (text : Octets) (ended : Bool) : State :=
  let s := if s.open_ then { s with out := [s.ending] :: s.out, open_ := false } else s
  if ended then { s with out := (text ++ [s.ending]) :: s.out }
  else { s with out := text :: s.out, open_ := true }

def writeSpace (s : State) : State := s.writeLine s.space s.ended

/-- Writes a line to a file; some names stand for the output. -/
def writeTo (s : State) (name text : Octets) : State :=
  if name = "/dev/stdout".toList then s.writeLine text true
  else { s with files := s.files.map fun (other, content) =>
    (other, if other = name then content ++ text ++ [s.ending] else content) }

/-- The text of a file, if it can be read. -/
def content (s : State) (name : Octets) : Option Octets :=
  (s.tree.read (Octets.path name)).toOption.map fun content => .ofBytes content.toBytes

def writeQueue (s : State) : State :=
  let s := s.queue.foldl (fun (s : State) item => match item with
    | .text text => s.write text
    | .file name => s.write ((s.content name).getD [])) s
  { s with queue := [] }

/-- Takes the next line, if there is one. -/
def advance (s : State) (put : Octets → Octets) : Option State :=
  match s.rest with
  | [] => none
  | line :: rest =>
    some { s with
      space := put line.text, ended := line.ended, file := line.file, rest := rest
      number := s.number + 1 }

/-- Uses an expression, or the one used last. -/
def resolve (s : State) (r : Option Regex) : Option Regex × State :=
  match r with
  | some r => (some r, { s with regex := some r })
  | none => (s.regex, s)

/-- Whether the line has an address. -/
def isAt (s : State) : Address → Bool × State
  | .line n => (s.number == n, s)
  | .every first step =>
    (if step = 0 then s.number == first
      else s.number ≥ first && (s.number - first) % step == 0, s)
  | .last => (s.rest.isEmpty, s)
  | .fits r =>
    match s.resolve r with
    | (some r, s) => (r.isIn s.space, s)
    | (none, s) => (false, s)

/-- Whether the line is in the range of a command, whose number is `i`. -/
def isIn (s : State) (i : Nat) (first : Address) (bound : Bound) : Bool × State :=
  let setRange (s : State) (r : Range) : State := { s with ranges := s.ranges.setIfInBounds i r }
  match s.ranges.getD i .outside with
  | .closed => (false, s)
  | .outside =>
    let (starts, s) := s.isAt first
    if !starts then (false, s)
    else
      let finished : Range := match first with
        | .line _ => .closed
        | _ => .outside
      match bound with
      | .at (.line n) =>
        (true, if n ≤ s.number then setRange s finished else setRange s (.untilLine n))
      | .more n => (true, if n = 0 then setRange s finished else setRange s (.untilLine (s.number + n)))
      | .multiple n =>
        if n = 0 || s.number % n = 0 then (true, setRange s finished)
        else (true, setRange s (.untilLine ((s.number / n + 1) * n)))
      | .at _ => (true, setRange s .untilBound)
  | .untilLine n =>
    let finished : Range := match first with
      | .line _ => .closed
      | _ => .outside
    (s.number ≤ n, if n ≤ s.number then setRange s finished else s)
  | .untilBound =>
    let finished : Range := match first with
      | .line _ => .closed
      | _ => .outside
    match bound with
    | .at address =>
      let (ends, s) := s.isAt address
      (true, if ends then setRange s finished else s)
    | _ => (true, s)

/-- Whether a command is for the line. -/
def selects (s : State) (i : Nat) (c : Command) : Bool × State :=
  let (hit, s) := match c.first, c.second with
    | none, _ => (true, s)
    | some address, none => s.isAt address
    | some address, some bound => s.isIn i address bound
  (hit != c.negated, s)

/-- Whether the range of a command goes on behind the line. -/
def inRange (s : State) (i : Nat) : Bool :=
  match s.ranges.getD i .outside with
  | .untilBound | .untilLine _ => true
  | _ => false

end State

/-- What is put in place of a find. -/
def replacement (pieces : List Piece) (s : Octets) (f : Regex.Find) : Octets :=
  let (out, _, _) := pieces.foldl (fun (out, casing, next) piece =>
    match piece with
    | .casing c =>
      match c with
      | .nextUpper | .nextLower => (out, casing, c)
      | .none => (out, Casing.none, Casing.none)
      | _ => (out, c, next)
    | .text t => put out casing next t
    | .group n => put out casing next (f.group s n)) (([] : List Octets), Casing.none, Casing.none)
  out.reverse.flatten
where
  put (out : List Octets) (casing next : Casing) (t : Octets) : List Octets × Casing × Casing :=
    let body := match casing with
      | .upper => t.map Char.toUpper
      | .lower => t.map Char.toLower
      | _ => t
    match body with
    | [] => (out, casing, next)
    | c :: rest =>
      let c := match next with
        | .nextUpper => c.toUpper
        | .nextLower => c.toLower
        | _ => c
      ((c :: rest) :: out, casing, .none)

/-- A text in which every character can be seen, in lines of less than `width` characters; no width at
all is a width of 0. -/
def unambiguous (width : Nat) (s : Octets) : Octets :=
  let shown : List Octets := s.map fun c => match c with
    | '\\' => "\\\\".toList
    | '\x07' => "\\a".toList
    | '\x08' => "\\b".toList
    | '\x0c' => "\\f".toList
    | '\n' => "\\n".toList
    | '\r' => "\\r".toList
    | '\t' => "\\t".toList
    | '\x0b' => "\\v".toList
    | c =>
      if 32 ≤ c.toNat && c.toNat < 127 then [c]
      else
        let digits := Nat.toDigits 8 c.toNat
        '\\' :: List.replicate (3 - digits.length) '0' ++ digits
  let (out, _) := shown.foldl (fun (out, column) part =>
    if width > 0 && column + part.length ≥ width then (part :: "\\\n".toList :: out, part.length)
    else (part :: out, column + part.length)) (([] : List Octets), 0)
  out.reverse.flatten ++ ['$']

/-- How it goes on after a command. -/
inductive Next where
  | command (number : Nat)
  /-- The next line, without printing this one. -/
  | line
  /-- The same text once more, without a new line. -/
  | again
  | stop

namespace State

/-- Prints the text if that is usual, and what was kept for later. -/
def finishCycle (s : State) : State :=
  (if s.quiet then s else s.writeSpace).writeQueue

def stop (s : State) : State := { s with stopped := true }

/-- Carries out a command on a line. -/
def carryOut (p : Program) (s : State) (i : Nat) (c : Command) : Next × State :=
  let go (s : State) : Next × State := (.command (i + 1), s)
  match c.action with
  | .comment | .block _ => go s
  | .list width => go (s.write (unambiguous (width.getD p.width) s.space ++ ['\n']))
  | .exchange sub =>
    match s.resolve sub.regex with
    | (none, s) => (.stop, { s with problem := some "-e expression #1, char 0: no previous regular expression", code := 1 })
    | (some r, s) =>
      let (new, changes) := r.exchange s.space (replacement sub.pieces s.space) sub.first sub.every
      if changes = 0 then go s
      else
        let s := { s with space := new, replaced := true }
        let s := if sub.prints then s.writeSpace else s
        go (match sub.file with
          | some name => s.writeTo name s.space
          | none => s)
  | .map table =>
    go { s with space := s.space.map fun c => ((table.find? (·.1 == c)).map (·.2)).getD c }
  | .append text => go { s with queue := s.queue ++ [.text text] }
  | .insert text => go (s.write text)
  | .change text =>
    let s := if c.second.isNone || c.negated || !s.inRange i then s.write text else s
    (.line, s.writeQueue)
  | .readFile name => go { s with queue := s.queue ++ [.file name] }
  | .readLine name =>
    let all := Octets.lines ((s.content name).getD [])
    let taken := ((s.taken.find? (·.1 == name)).map (·.2)).getD 0
    match all[taken]? with
    | some line =>
      go { s with
        queue := s.queue ++ [.text (line ++ ['\n'])]
        taken := (name, taken + 1) :: s.taken.filter (·.1 != name) }
    | none => go s
  | .writeFile name firstLine =>
    go (s.writeTo name (if firstLine then s.space.takeWhile (· != '\n') else s.space))
  | .jump label when =>
    let taken := match when with
      | none => true
      | some wanted => s.replaced == wanted
    let s := if when.isSome then { s with replaced := false } else s
    if !taken then go s
    else
      let target := ((p.labels.find? (·.1 == label)).map (·.2)).getD p.commands.size
      (.command (if label.isEmpty then p.commands.size else target), s)
  | .quit code silent =>
    let s := { s with code := code }
    (.stop, if silent then s else s.finishCycle)
  | .letter c =>
    match c with
    | '=' => go (s.write (Text.ofNat s.number ++ ['\n']))
    | 'd' => (.line, s.writeQueue)
    | 'D' =>
      if s.space.any (· == '\n') then
        (.again, { s with space := (s.space.dropWhile (· != '\n')).drop 1 }.writeQueue)
      else (.line, s.writeQueue)
    | 'h' => go { s with hold := s.space }
    | 'H' => go { s with hold := s.hold ++ '\n' :: s.space }
    | 'g' => go { s with space := s.hold }
    | 'G' => go { s with space := s.space ++ '\n' :: s.hold }
    | 'x' => go { s with space := s.hold, hold := s.space }
    | 'p' => go s.writeSpace
    | 'P' => go (s.writeLine (s.space.takeWhile (· != '\n')) true)
    | 'z' => go { s with space := [] }
    | 'F' => go (s.write (s.file ++ ['\n']))
    | 'n' =>
      if s.rest.isEmpty then (.stop, s.finishCycle)
      else
        let s := s.finishCycle
        go ((s.advance id).getD s)
    | 'N' =>
      if s.rest.isEmpty then (.stop, s.finishCycle)
      else
        let s := s.writeQueue
        go ((s.advance fun line => s.space ++ s.ending :: line).getD s)
    | _ => go s

/-- Carries out the commands from one of them on, line after line. -/
def run (p : Program) : (fuel : Nat) → (i : Nat) → State → State
  | 0, _, s => s
  | fuel + 1, i, s =>
    match p.commands[i]? with
    | none => nextLine fuel s.finishCycle
    | some c =>
      let (hit, s) := s.selects i c
      if !hit then
        match c.action with
        | .block after => run p fuel after s
        | _ => run p fuel (i + 1) s
      else
        match s.carryOut p i c with
        | (.command j, s) => run p fuel j s
        | (.line, s) => nextLine fuel s
        | (.again, s) => run p fuel 0 s
        | (.stop, s) => s.stop
where
  /-- Starts with the next line, if there is one. -/
  nextLine (fuel : Nat) (s : State) : State :=
    match s.advance id with
    | some s => run p fuel 0 { s with replaced := false }
    | none => s

end State

/-- The lines of a text. -/
def linesOf (ending : Char) (file s : Octets) : List Line :=
  let pieces := Text.splitOn ending s
  let all := pieces.zipIdx.map fun (text, i) => Line.mk text (i + 1 < pieces.length) file
  if pieces.getLast? = some [] then all.dropLast else all

/-- How many commands are carried out at most. -/
def stepLimit : Nat := 20000000

/-- Runs a program on lines; a run that was stopped before does nothing. -/
def State.runOn (p : Program) (s : State) (lines : List Line) : State :=
  if s.stopped then s else
  match { s with rest := lines }.advance id with
  | some s => s.run p stepLimit 0
  | none => s

/-- The arguments with the option to change files in its long form. -/
def normalised (args : List Octets) : List Octets :=
  args.flatMap fun arg => match arg with
    | '-' :: c :: more =>
      if c = '-' then [arg]
      else
        let letters := (c :: more).takeWhile fun c => c != 'i'
        if letters.any (fun c => c == 'e' || c == 'f' || c == 'l') ||
            letters.length = (c :: more).length then [arg]
        else
          let suffix := (c :: more).drop (letters.length + 1)
          (if letters.isEmpty then [] else ['-' :: letters]) ++
            [if suffix.isEmpty then "--in-place".toList else "--in-place=".toList ++ suffix]
    | _ => [arg]

def table : OptTable :=
  .ofLetters "e:f:nErsuzl:b"
    [("expression", 'e'), ("file", 'f'), ("quiet", 'n'), ("silent", 'n'), ("regexp-extended", 'E'),
      ("separate", 's'), ("unbuffered", 'u'), ("null-data", 'z'), ("line-length", 'l'),
      ("in-place", 'i'), ("posix", 'p'), ("debug", 'd'), ("sandbox", 'S'), ("follow-symlinks", 'F')]

/-- Says how the program is used. -/
def failCall {α : Type} (message : Option Octets) : Task α := do
  match message with
  | some message => Task.complain message
  | none => pure ()
  Task.writeTo 2 (("Usage: " : Text) ++ (← read).name ++
    (" [OPTION]... \x7bscript-only-if-no-other-script\x7d [input-file]...\n\n" : Text))
  Task.exit 1

/-- The parts of the program that are given, each with a name for it. -/
def parts (g : Given) : Task (List (Option Octets × Octets) × List Octets) := do
  let given ← g.options.filterMapM fun (c, value) => do
    if c = 'e' then return some (none, value)
    else if c = 'f' then
      match ← Task.contentOf value with
      | .ok s => return some (some value, if s.getLast? = some '\n' then s.dropLast else s)
      | .error e =>
        Task.fail 1 (("couldn't open file " : Text) ++ value ++ (": " : Text) ++ e.brief)
    else return none
  match given, g.operands with
  | [], script :: names => return ([(none, script)], names)
  | [], [] => failCall none
  | _, names => return (given, names)

/-- Says what is wrong with a program and where. -/
def failProgram {α : Type} (sources : List (Option Octets × Octets)) (wrong : Wrong) : Task α := do
  let (_, found) := sources.zipIdx.foldl (fun (start, found) ((file, text), i) =>
    let pos := match wrong.spot with
      | .at pos => pos
      | _ => 0
    let finish := start + text.length
    if start ≤ pos && (pos ≤ finish || i + 1 = sources.length) then (finish + 1, some (file, text, i, pos - start))
    else (finish + 1, found)) (0, (none : Option (Option Octets × Octets × Nat × Nat)))
  let isExpression := wrong.spot matches .expression
  if isExpression then Task.fail 4 wrong.message
  match found with
  | some (none, _, i, offset) =>
    if ("can't find label" : Text).isPrefixOf wrong.message then Task.fail 1 wrong.message
    Task.fail 1 (("-e expression #" : Text) ++ Text.ofNat (i + 1) ++ (", char " : Text) ++
      Text.ofNat (if wrong.spot matches .whole then 0 else offset) ++ (": " : Text) ++ wrong.message)
  | some (some file, text, _, offset) =>
    let line := ((text.take (offset - 1)).filter (· == '\n')).length + 1
    Task.fail 1 (("file " : Text) ++ file ++ (" line " : Text) ++ Text.ofNat line ++
      (": " : Text) ++ wrong.message)
  | none => Task.fail 1 wrong.message

/-- The files that a program writes to. -/
def written (p : Program) : List Octets :=
  (p.commands.toList.filterMap fun c => match c.action with
    | .writeFile name _ => some name
    | .exchange s => s.file
    | _ => none).eraseDups

def sed : Task Nat := do
  let args := normalised (← Task.args)
  let g ← match table.read (args.length + 1) args with
    | .ok g => pure g
    | .error wrong => failCall (some wrong.message)
  let (sources, names) ← parts g
  let text := ['\n'].intercalate (sources.map (·.2))
  let quiet := g.has 'n' || ("#n\n" : Text).isPrefixOf text || text = ['#', 'n']
  let p ← match Program.ofText (g.has 'E' || g.has 'r') text with
    | .ok p => pure { p with width := ((g.value? 'l').bind Text.toNat?).getD p.width }
    | .error wrong => failProgram sources wrong
  let ending := if g.has 'z' then '\x00' else '\n'
  let inPlace := g.has 'i'
  let names := if names.isEmpty then [['-']] else names
  let contents ← names.filterMapM fun name => do
    match ← Task.contentOf name with
    | .ok s => return some (name, s)
    | .error .isADirectory => do
      Task.complain ((if inPlace then "couldn't edit " else "couldn't read ").toList ++ name ++
        (if inPlace then ": not a regular file" else ": Is a directory").toList)
      return none
    | .error e => do
      Task.complain (("can't read " : Text) ++ name ++ (": " : Text) ++ e.brief)
      return none
  let start : State :=
    { tree := (← get).tree, quiet := quiet, ending := ending
      ranges := p.commands.map fun c => if c.fromZero then .untilBound else .outside
      files := (written p).map (·, []) }
  let finish ← if inPlace || g.has 's' then
      contents.foldlM (fun (s : State) (name, content) => do
        if s.stopped then return s
        let s := { s with number := 0 }.runOn p (linesOf ending name content)
        if inPlace then do
          -- A run that is stopped leaves the rest of the file as it is.
          let left := s.rest.flatMap fun line => line.text ++ if line.ended then [ending] else []
          let new := s.out.reverse.flatten ++ (if s.open_ && !left.isEmpty then [ending] else []) ++ left
          match g.value? 'i' with
          | some (c :: suffix) => do
            let _ ← Task.change (·.store (Octets.path (name ++ c :: suffix)) (.ofBytes content.toBytes))
          | _ => pure ()
          let _ ← Task.change (·.store (Octets.path name) (.ofBytes (Octets.toBytes new)))
          return { s with out := [], open_ := false }
        else return s) start
    else pure (start.runOn p (contents.flatMap fun (name, s) => linesOf ending name s))
  Task.print finish.out.reverse.flatten
  finish.files.forM fun (name, content) => do
    let _ ← Task.change (·.store (Octets.path name) (.ofBytes content.toBytes))
  match finish.problem with
  | some problem => Task.complain problem
  | none => pure ()
  return if finish.code != 0 then finish.code else if contents.length = names.length then 0 else 2

end CompileFail.Utility.Sed
