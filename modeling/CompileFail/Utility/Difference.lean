import CompileFail.Utility.Lines

/-! Programs that compare two files. -/

namespace CompileFail.Utility

/-- Complains and points to the help; the name stands in front of both. -/
def failUsageTwice {α : Type} (message : Octets) : Task α := do
  Task.complain message
  let name := (← MonadReader.read).name
  Task.complain (("Try '" : Text) ++ name ++ (" --help' for more information." : Text))
  Task.exit 2

/-- The arguments of a program of this kind, which has to be given two files. -/
def twoFiles (t : OptTable) : Task (Given × Octets × Octets) := do
  let p ← read
  let args := p.args.drop 1
  match OptTable.read t (args.length + 1) args with
  | .error wrong => failUsageTwice wrong.message
  | .ok g =>
    match g.operands with
    | [a, b] => return (g, a, b)
    | _ :: _ :: extra :: _ => failUsageTwice (("extra operand " : Text) ++ inQuotes extra)
    | few =>
      failUsageTwice (("missing operand after " : Text) ++ inQuotes (few.getLast?.getD p.name))

/-- The first place at which two texts differ: the offset and the number of the line. -/
def firstDifference : (offset line : Nat) → Octets → Octets → Option (Nat × Nat)
  | _, _, [], [] => none
  | offset, line, c :: s, d :: t =>
    if c = d then firstDifference (offset + 1) (if c = '\n' then line + 1 else line) s t
    else some (offset, line)
  | offset, line, _, _ => some (offset, line)

/-- Says where two files differ first. -/
def cmp : Task Nat := do
  let (g, a, b) ← twoFiles (.ofLetters "bln:s" [("quiet", 's'), ("silent", 's'), ("bytes", 'n')])
  let content (name : Octets) : Task Octets := do
    match ← Task.contentOf name with
    | .ok s => return s
    | .error e => do
      if !g.has 's' then Task.complain (name ++ (": " : Text) ++ e.brief)
      Task.exit 2
  let cut (s : Octets) : Octets := match (g.value? 'n').bind Text.toNat? with
    | some n => s.take n
    | none => s
  let s := cut (← content a)
  let t := cut (← content b)
  if g.has 'l' then
    let width := (Text.ofNat (min s.length t.length)).length
    (s.zip t).zipIdx.forM fun ((c, d), i) => do
      let octal (c : Char) : Octets := Text.padLeft 3 (Nat.toDigits 8 c.toNat)
      if c != d then
        Task.print (Text.padLeft width (Text.ofNat (i + 1)) ++ [' '] ++ octal c ++ [' '] ++ octal d ++ ['\n'])
    return if s = t then 0 else 1
  match firstDifference 0 1 s t with
  | none => return 0
  | some (offset, line) => do
    if !g.has 's' then
      match (s.drop offset).head?, (t.drop offset).head? with
      | some _, some _ =>
        Task.print (a ++ [' '] ++ b ++ (" differ: char " : Text) ++ Text.ofNat (offset + 1) ++
          (", line " : Text) ++ Text.ofNat line ++ ['\n'])
      | first, _ => do
        let short := if first.isNone then a else b
        if offset = 0 then
          Task.complain (("EOF on " : Text) ++ short ++ (" which is empty" : Text))
        else
          let ended := (s.drop (offset - 1)).head? == some '\n'
          Task.complain (("EOF on " : Text) ++ short ++ (" after byte " : Text) ++
            Text.ofNat offset ++ (if ended then ", line " else ", in line ").toList ++
            Text.ofNat (if ended then line - 1 else line))
    return 1

/-- How a line fares between two files. -/
inductive Fate where
  | kept
  | dropped
  | added
deriving DecidableEq

/-- The lengths of the longest common parts of a line list and all ends of another one. -/
def commonRow (same : Octets → Octets → Bool) (a : Octets) :
    (bs : List Octets) → (below : List Nat) → List Nat
  | b :: bs, n :: below =>
    let rest := commonRow same a bs below
    (if same a b then below.headD 0 + 1 else max n (rest.headD 0)) :: rest
  | _, _ => [0]

/-- A way from one list of lines to another one that keeps as many as there can be kept. -/
def fates (same : Octets → Octets → Bool) (as bs : List Octets) : List (Fate × Octets) :=
  let rows := as.foldr (fun a rows =>
    commonRow same a bs (rows.headD (List.replicate (bs.length + 1) 0)) :: rows)
    [List.replicate (bs.length + 1) 0]
  go rows as bs
where
  go : List (List Nat) → List Octets → List Octets → List (Fate × Octets)
    | row :: below :: rows, a :: as, bs => across row below a bs fun bs =>
        go (below :: rows) as bs
    | _, as, bs => as.map (Fate.dropped, ·) ++ bs.map (Fate.added, ·)
  /-- Deals with one line of the first file, after those lines that the second has in front. -/
  across (row below : List Nat) (a : Octets) (bs : List Octets)
      (next : List Octets → List (Fate × Octets)) : List (Fate × Octets) :=
    let skip := bs.length + 1
    let row := row.drop (row.length - skip)
    let below := below.drop (below.length - skip)
    match bs with
    | [] => (.dropped, a) :: next []
    | b :: more =>
      if same a b then (.kept, a) :: next more
      else if (row.drop 1).headD 0 ≤ below.headD 0 then (.dropped, a) :: next (b :: more)
      else (.added, b) :: across row below a more next

/-- A change: where it starts in both files, and the lines that are dropped and added. -/
structure Hunk where
  first : Nat
  second : Nat
  dropped : List Octets
  added : List Octets

/-- The changes on a way from one file to another one. -/
def hunks : (i j : Nat) → List (Fate × Octets) → List Hunk
  | _, _, [] => []
  | i, j, (fate, line) :: rest =>
    match fate with
    | .kept => hunks (i + 1) (j + 1) rest
    | .dropped => join { first := i, second := j, dropped := [line], added := [] }
        (hunks (i + 1) j rest)
    | .added => join { first := i, second := j, dropped := [], added := [line] }
        (hunks i (j + 1) rest)
where
  /-- Joins a change with one that follows at once. -/
  join (h : Hunk) : List Hunk → List Hunk
    | next :: more =>
      if next.first = h.first + h.dropped.length ∧ next.second = h.second + h.added.length then
        { h with dropped := h.dropped ++ next.dropped, added := h.added ++ next.added } :: more
      else h :: next :: more
    | [] => [h]

/-- A line with a mark in front; one that has no end is said to have none. -/
def marked (mark : String) (line : Octets) : Octets :=
  mark.toList ++ line ++
    (if line.getLast? = some '\n' then [] else "\n\\ No newline at end of file\n".toList)

/-- The numbers of the lines of a change in one of the files. -/
def span (start size : Nat) : Octets :=
  if size ≤ 1 then Text.ofNat (start + size)
  else Text.ofNat (start + 1) ++ [','] ++ Text.ofNat (start + size)

def Hunk.text (h : Hunk) : Octets :=
  let letter : Char := if h.added.isEmpty then 'd' else if h.dropped.isEmpty then 'a' else 'c'
  span h.first h.dropped.length ++ [letter] ++ span h.second h.added.length ++ ['\n'] ++
    h.dropped.flatMap (marked "< ") ++
    (if letter = 'c' then "---\n".toList else []) ++ h.added.flatMap (marked "> ")

/-- Changes with the lines around them; `context` lines on each side. -/
def unified (context : Nat) (as : List Octets) (hs : List Hunk) : Octets :=
  (groups hs).flatMap fun group =>
    match group.head?, group.getLast? with
    | some h, some l =>
      let start := h.first - context
      let finish := min as.length (l.first + l.dropped.length + context)
      let lead := h.first - start
      let tail := finish - (l.first + l.dropped.length)
      let second := h.second - lead
      let size := l.second + l.added.length + tail - second
      let range (start size : Nat) : Octets :=
        if size = 1 then Text.ofNat (start + 1)
        else if size = 0 then Text.ofNat start ++ (",0" : Text)
        else Text.ofNat (start + 1) ++ [','] ++ Text.ofNat size
      let slice (i j : Nat) : Octets := ((as.drop i).take (j - i)).flatMap (marked " ")
      let body := (group.foldl (fun (out, at_) h =>
        (out ++ slice at_ h.first ++ h.dropped.flatMap (marked "-") ++ h.added.flatMap (marked "+"),
          h.first + h.dropped.length)) (([] : Octets), start))
      ("@@ -" : Text) ++ range start (finish - start) ++ (" +" : Text) ++ range second size ++
        (" @@\n" : Text) ++ body.1 ++ slice body.2 finish
    | _, _ => []
where
  /-- Changes whose surroundings touch belong together. -/
  groups : List Hunk → List (List Hunk)
    | [] => []
    | h :: rest =>
      match groups rest with
      | (next :: group) :: others =>
        if next.first ≤ h.first + h.dropped.length + 2 * context then
          (h :: next :: group) :: others
        else [h] :: (next :: group) :: others
      | others => [h] :: others

/-- Shows how two files differ. -/
def diff : Task Nat := do
  let (g, a, b) ← twoFiles (.ofLetters "abBiNqrsuU:w"
    [("brief", 'q'), ("report-identical-files", 's'), ("unified", 'u'), ("ignore-case", 'i'),
      ("ignore-all-space", 'w'), ("ignore-space-change", 'b'), ("ignore-blank-lines", 'B'),
      ("text", 'a'), ("new-file", 'N'), ("recursive", 'r')])
  let tree ← Task.tree
  let inDir (dir name : Octets) : Octets :=
    if tree.isDir (Octets.path dir) && !tree.isDir (Octets.path name) && name != ['-'] then
      dir ++ '/' :: (name.reverse.takeWhile (· != '/')).reverse
    else dir
  let first := inDir a b
  let second := inDir b a
  let content (name : Octets) : Task (Option Octets) := do
    match ← Task.contentOf name with
    | .ok s => return some s
    | .error e => do
      Task.complain (name ++ (": " : Text) ++ e.brief)
      return none
  match ← content first, ← content second with
  | some s, some t => do
    let key (line : Octets) : Octets :=
      let line := if g.has 'i' then Text.asciiLower line else line
      if g.has 'w' then line.filter (!isSpace ·)
      else if g.has 'b' then [' '].intercalate ((if line.head?.any isSpace then [[]] else []) ++ wordsOf line)
      else line
    let as := records s
    let bs := records t
    let hs := hunks 0 0 (fates (fun x y => key x == key y) as bs)
    let isBlank (line : Octets) : Bool := line == ['\n']
    let hs := if g.has 'B' then hs.filter fun h => !(h.dropped ++ h.added).all isBlank else hs
    if hs.isEmpty then
      if g.has 's' then
        Task.print (("Files " : Text) ++ first ++ (" and " : Text) ++ second ++ (" are identical\n" : Text))
      return 0
    if g.has 'q' then
      Task.print (("Files " : Text) ++ first ++ (" and " : Text) ++ second ++ (" differ\n" : Text))
    else if g.has 'u' || g.has 'U' then
      let context := ((g.value? 'U').bind Text.toNat?).getD 3
      let title (mark : String) (name : Octets) : Octets :=
        mark.toList ++ name ++ ("\t1970-01-01 00:00:00.000000000 +0000\n" : Text)
      Task.print (title "--- " first ++ title "+++ " second ++ unified context as hs)
    else Task.print (hs.flatMap Hunk.text)
    return 1
  | _, _ => return 2

end CompileFail.Utility
