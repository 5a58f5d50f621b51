import CompileFail.Script.Pattern
import CompileFail.Utility.Files

/-! Programs that say what is in a directory tree. -/

namespace CompileFail.Utility

/-- The time of a clock in years, months, days, hours, minutes and seconds. -/
structure Moment where
  year : Nat
  month : Nat
  day : Nat
  hour : Nat
  minute : Nat
  second : Nat
  /-- Counted from Sunday. -/
  weekday : Nat
  /-- Counted from 1. -/
  yearDay : Nat

/-- The moment so many seconds after the start of 1970. -/
def Moment.ofSeconds (seconds : Nat) : Moment :=
  let days := seconds / 86400
  let rest := seconds % 86400
  let era := days + 719468
  let cycle := era / 146097
  let dayOfCycle := era % 146097
  let yearOfCycle :=
    (dayOfCycle - dayOfCycle / 1460 + dayOfCycle / 36524 - dayOfCycle / 146096) / 365
  let dayOfYear := dayOfCycle - (365 * yearOfCycle + yearOfCycle / 4 - yearOfCycle / 100)
  let shifted := (5 * dayOfYear + 2) / 153
  let day := dayOfYear - (153 * shifted + 2) / 5 + 1
  let month := if shifted < 10 then shifted + 3 else shifted - 9
  let year := yearOfCycle + 400 * cycle + if month ≤ 2 then 1 else 0
  let isLeap := year % 4 = 0 ∧ (year % 100 ≠ 0 ∨ year % 400 = 0)
  let before := [0, 31, 59, 90, 120, 151, 181, 212, 243, 273, 304, 334].getD (month - 1) 0
  { year := year, month := month, day := day, hour := rest / 3600, minute := rest / 60 % 60
    second := rest % 60, weekday := (days + 4) % 7
    yearDay := before + day + if isLeap ∧ month > 2 then 1 else 0 }

def monthNames : List String :=
  ["January", "February", "March", "April", "May", "June", "July", "August", "September",
    "October", "November", "December"]

/-! What is said about an entry. -/

namespace EntryText

def size : Entry → Nat
  | .dir => 4096
  | .file content _ _ => content.size
  | .link target => target.length
  | .device => 0

def modified : Entry → Nat
  | .file _ _ modified => modified
  | _ => 0

def letter : Entry → Char
  | .dir => 'd'
  | .file .. => '-'
  | .link _ => 'l'
  | .device => 'c'

def kind : Entry → String
  | .dir => "directory"
  | .file content .. => if content.size = 0 then "regular empty file" else "regular file"
  | .link _ => "symbolic link"
  | .device => "character special file"

def mode : Entry → String
  | .dir => "755"
  | .file _ executable _ => if executable then "755" else "644"
  | .link _ => "777"
  | .device => "666"

def permissions (entry : Entry) : Octets :=
  letter entry :: (match entry with
    | .dir => "rwxr-xr-x"
    | .file _ true _ => "rwxr-xr-x"
    | .file _ false _ => "rw-r--r--"
    | .link _ => "rwxrwxrwx"
    | .device => "rw-rw-rw-").toList

/-- The mark behind a name that says what it is. -/
def mark : Entry → Octets
  | .dir => ['/']
  | .file _ true _ => ['*']
  | .link _ => ['@']
  | _ => []

end EntryText

/-- A name that is listed, with what stands there. -/
abbrev Row := Octets × Entry

/-- How rows are listed. -/
structure RowStyle where
  given : Given

namespace RowStyle

def has (o : RowStyle) (c : Char) : Bool := o.given.has c

/-- The rows in the order in which they are shown. -/
def sorted (o : RowStyle) (rows : List Row) : List Row :=
  let byName := rows.mergeSort fun a b => !decide (b.1 < a.1)
  let rows :=
    if o.has 'U' || o.has 'f' then rows
    else if o.has 'S' then
      byName.mergeSort fun a b => EntryText.size b.2 ≤ EntryText.size a.2
    else if o.has 't' then
      byName.mergeSort fun a b => EntryText.modified b.2 ≤ EntryText.modified a.2
    else byName
  if o.has 'r' then rows.reverse else rows

def isLong (o : RowStyle) : Bool := o.has 'l' || o.has 'g' || o.has 'o' || o.has 'n'

def nameText (o : RowStyle) (row : Row) : Octets :=
  let body := if o.has 'Q' then '"' :: row.1 ++ ['"'] else row.1
  body ++ (if o.has 'F' then EntryText.mark row.2
    else if o.has 'p' && row.2.isDir then ['/'] else [])

/-- Rows with all that there is to say about each. -/
def longText (o : RowStyle) (rows : List Row) : Octets :=
  let width := (rows.map fun (_, entry) => (Text.ofNat (EntryText.size entry)).length).foldl max 1
  rows.flatMap fun (name, entry) =>
    let t := Moment.ofSeconds (EntryText.modified entry)
    EntryText.permissions entry ++ (if entry.isDir then " 2" else " 1").toList ++
      (if o.has 'g' then [] else if o.has 'n' then " 0".toList else " root".toList) ++
      (if o.has 'o' then [] else if o.has 'n' then " 0".toList else " root".toList) ++
      ' ' :: Text.padLeft width (Text.ofNat (EntryText.size entry)) ++
      ' ' :: ((monthNames.getD (t.month - 1) "").toList.take 3) ++
      ' ' :: Text.padLeft 2 (Text.ofNat t.day) ++
      ' ' :: Text.twoDigits t.hour ++ ':' :: Text.twoDigits t.minute ++
      ' ' :: (match entry with
        | .link target => name ++ (" -> " : Text) ++ target
        | _ => o.nameText (name, entry)) ++ ['\n']

/-- How many blocks of 1024 bytes an entry takes. -/
def blocks : Entry → Nat
  | .dir => 4
  | .file content .. => 4 * ((content.size + 4095) / 4096)
  | _ => 0

def text (o : RowStyle) (rows : List Row) : Octets :=
  let rows := o.sorted rows
  let width := (rows.map fun (_, entry) => (Text.ofNat (blocks entry)).length).foldl max 1
  let sizeText (entry : Entry) : Octets :=
    if o.has 's' then Text.padLeft width (Text.ofNat (blocks entry)) ++ [' '] else []
  if o.isLong then o.longText rows
  else if o.has 'm' then
    if rows.isEmpty then [] else (", " : Text).intercalate (rows.map o.nameText) ++ ['\n']
  else if o.has 'x' || o.has 'C' then
    if rows.isEmpty then [] else ("  " : Text).intercalate (rows.map o.nameText) ++ ['\n']
  else rows.flatMap fun row => sizeText row.2 ++ o.nameText row ++ ['\n']

end RowStyle

/-- The rows of a directory. -/
def RowStyle.rowsAt (o : RowStyle) (tree : FileTree) (place : Place) : List Row :=
  let rows := tree.children place
  let isHidden (name : Octets) : Bool := name.head? == some '.'
  if o.has 'a' || o.has 'f' then (".".toList, .dir) :: ("..".toList, .dir) :: rows
  else if o.has 'A' then rows
  else rows.filter fun (name, _) => !isHidden name

/-- A directory that is listed, and those in it if they are wanted too. -/
def RowStyle.sections (o : RowStyle) (tree : FileTree) :
    (levels : Nat) → Octets → Place → List (Octets × List Row)
  | 0, _, _ => []
  | levels + 1, name, place =>
    let rows := o.rowsAt tree place
    (name, rows) ::
      if o.has 'R' then
        (o.sorted rows).flatMap fun (child, entry) =>
          if entry.isDir && child != ['.'] && child != ['.', '.'] then
            o.sections tree levels (within name child) (place ++ [child])
          else []
      else []

def ls : Task Nat := do
  let g ← given { OptTable.ofLetters "aAbBcCdfFgGhHiI:klLmnNopqQrRsStT:uUvw:xXZ1"
    [("all", 'a'), ("almost-all", 'A'), ("directory", 'd'), ("classify", 'F'), ("recursive", 'R'),
      ("reverse", 'r'), ("color", '!'), ("quote-name", 'Q'), ("human-readable", 'h'),
      ("size", 's'), ("sort", '$'), ("format", '%'), ("time", '#'),
      ("group-directories-first", '+')] with code := 2 }
  let o : RowStyle := ⟨g⟩
  let names := if g.operands.isEmpty then [['.']] else g.operands
  let tree ← Task.tree
  let follows := !(o.has 'd' || o.isLong || o.has 'F') || o.has 'L' || o.has 'H'
  let found ← names.filterMapM fun name => do
    let p := Octets.path name
    let first := if follows then match tree.find p true with
      | .ok r => .ok r
      | .error _ => tree.find p false
      else tree.find p false
    match first with
    | .ok (place, entry) => return some (name, place, entry)
    | .error e => do
      Task.complain (("cannot access " : Text) ++ inQuotes name ++ (": " : Text) ++ e.brief)
      return none
  let isListed (entry : Entry) : Bool := entry.isDir && !o.has 'd'
  let files := found.filterMap fun (name, _, entry) => if isListed entry then none else some (name, entry)
  let dirs := o.sorted (found.filterMap fun (name, _, entry) =>
    if isListed entry then some (name, entry) else none)
  let sections := dirs.flatMap fun (name, _) =>
    match tree.find (Octets.path name) true with
    | .ok (place, _) => o.sections tree (tree.height + 1) name place
    | .error _ => []
  let titled := names.length > 1 || o.has 'R'
  let body (rows : List Row) : Octets :=
    (if o.isLong || o.has 's' then ("total " : Text) ++
      Text.ofNat ((rows.map fun (_, entry) => RowStyle.blocks entry).foldl (· + ·) 0) ++ ['\n']
      else []) ++ o.text rows
  let blocks := (if files.isEmpty then [] else [o.text files]) ++
    sections.map fun (name, rows) => (if titled then name ++ [':', '\n'] else []) ++ body rows
  Task.print (['\n'].intercalate blocks)
  return if found.length = names.length then 0 else 2

/-- Says what is known about files, in a format. -/
def stat : Task Nat := do
  let g ← given (.ofLetters "c:fLt" [("format", 'c'), ("printf", 'p'), ("dereference", 'L')])
  if g.operands.isEmpty then failMissing []
  let results ← g.operands.mapM fun name => do
    match ← entryOf name (g.has 'L') with
    | .error e => do
      Task.complain (("cannot statx " : Text) ++ inQuotes name ++ (": " : Text) ++ e.brief)
      return false
    | .ok (_, entry) => do
      let format := (g.value? 'c').getD (("  File: %N\n  Size: %s\t%F\n" : Text))
      Task.print (fill name entry (format.length + 1) format ++ ['\n'])
      return true
  return allDone results
where
  /-- Puts what is known in place of the marks of a format. -/
  fill (name : Octets) (entry : Entry) : (fuel : Nat) → Octets → Octets
    | 0, s => s
    | _, [] => []
    | fuel + 1, '%' :: c :: s =>
      (match c with
        | 'n' => name
        | 'N' => inQuotes name
        | 's' => Text.ofNat (EntryText.size entry)
        | 'F' => (EntryText.kind entry).toList
        | 'a' => (EntryText.mode entry).toList
        | 'A' => EntryText.permissions entry
        | 'U' | 'G' => "root".toList
        | 'u' | 'g' => ['0']
        | 'h' => if entry.isDir then ['2'] else ['1']
        | 'X' | 'Y' | 'Z' => Text.ofNat (EntryText.modified entry)
        | 'B' => "512".toList
        | '%' => ['%']
        | _ => ['?']) ++ fill name entry fuel s
    | fuel + 1, c :: s => c :: fill name entry fuel s

end CompileFail.Utility
