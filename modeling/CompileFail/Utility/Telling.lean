import CompileFail.Script.Condition
import CompileFail.Script.Format
import CompileFail.Utility.Listing

/-! Programs that say something: texts that they are given, the time, or what the host is. -/

namespace CompileFail.Utility

def echo : Task Nat := do
  Task.print (Script.optionEcho .programEcho (← Task.args))
  return 0

def printf : Task Nat := do
  let args ← Task.args
  match if args.head? = some ['-', '-'] then args.drop 1 else args with
  | [] => failMissing []
  | format :: args => do
    let r := Script.Format.render .program format args
    r.complaints.forM Task.complain
    Task.print r.out
    match r.excess with
    | [] => pure ()
    | first :: _ =>
      Task.complain (("warning: ignoring excess arguments, starting with " : Text) ++ inQuotes first)
    return if r.failed || !r.complaints.isEmpty then 1 else 0

/-- As much as is printed by a program that would not end by itself. -/
def endlessSize : Nat := 65536

/-- Prints the same line again and again. -/
def yes : Task Nat := do
  let g ← given (.ofLetters "")
  let line := (if g.operands.isEmpty then ['y'] else [' '].intercalate g.operands) ++ ['\n']
  Task.print (List.replicate (endlessSize / line.length + 1) line).flatten
  return 0

/-- What is wrong with a condition, as the program says it. -/
def wrongCondition (words : List Octets) : Octets :=
  match words with
  | [_, b] => ("missing argument after " : Text) ++ inQuotes b
  | [a, op, b] =>
    if ["-eq", "-ne", "-gt", "-ge", "-lt", "-le"].any (·.toList == op) then
      let bad := if (Script.Condition.number? a).isNone then a else b
      ("invalid integer " : Text) ++ inQuotes bad
    else inQuotes op ++ (": binary operator expected" : Text)
  | _ :: _ :: _ :: extra :: _ => ("extra argument " : Text) ++ inQuotes extra
  | _ => "missing argument"

def condition (words : List Octets) : Task Nat := do
  match Script.Condition.holds ⟨.bash, ← Task.tree, fun _ => false⟩ words with
  | .ok true => return 0
  | .ok false => return 1
  | .error _ => Task.fail 2 (wrongCondition words)

def test : Task Nat := do condition (← Task.args)

/-- The same with a bracket at the end. -/
def bracket : Task Nat := do
  let args ← Task.args
  if args.getLast? ≠ some [']'] then Task.fail 2 "missing ']'"
  condition args.dropLast

namespace Moment

def dayNames : List String :=
  ["Sunday", "Monday", "Tuesday", "Wednesday", "Thursday", "Friday", "Saturday"]

def zeros (width n : Nat) : Octets :=
  let digits := Text.ofNat n
  List.replicate (width - digits.length) '0' ++ digits

/-- The part of a moment that a letter stands for. -/
def part (t : Moment) (seconds : Nat) (c : Char) : Octets :=
  let two := zeros 2
  let blank (n : Nat) : Octets := Text.padLeft 2 (Text.ofNat n)
  let hour12 := if t.hour % 12 = 0 then 12 else t.hour % 12
  let day := (dayNames.getD t.weekday "").toList
  let month := (monthNames.getD (t.month - 1) "").toList
  let time := two t.hour ++ ':' :: two t.minute ++ ':' :: two t.second
  match c with
  | 'Y' => Text.ofNat t.year
  | 'C' => two (t.year / 100)
  | 'y' => two (t.year % 100)
  | 'm' => two t.month
  | 'd' => two t.day
  | 'e' => blank t.day
  | 'H' => two t.hour
  | 'k' => blank t.hour
  | 'I' => two hour12
  | 'l' => blank hour12
  | 'M' => two t.minute
  | 'S' => two t.second
  | 'p' => if t.hour < 12 then "AM".toList else "PM".toList
  | 'P' => if t.hour < 12 then "am".toList else "pm".toList
  | 'j' => zeros 3 t.yearDay
  | 'a' => day.take 3
  | 'A' => day
  | 'b' | 'h' => month.take 3
  | 'B' => month
  | 'u' => Text.ofNat (if t.weekday = 0 then 7 else t.weekday)
  | 'w' => Text.ofNat t.weekday
  | 'U' => two ((t.yearDay + 6 - t.weekday) / 7)
  | 'W' => two ((t.yearDay + 6 - (t.weekday + 6) % 7) / 7)
  | 'F' => Text.ofNat t.year ++ '-' :: two t.month ++ '-' :: two t.day
  | 'D' | 'x' => two t.month ++ '/' :: two t.day ++ '/' :: two (t.year % 100)
  | 'T' | 'X' => time
  | 'R' => two t.hour ++ ':' :: two t.minute
  | 'r' => two hour12 ++ ':' :: two t.minute ++ ':' :: two t.second ++
      (if t.hour < 12 then " AM" else " PM").toList
  | 'c' => day.take 3 ++ ' ' :: month.take 3 ++ ' ' :: blank t.day ++ ' ' :: time ++
      ' ' :: Text.ofNat t.year
  | 's' => Text.ofNat seconds
  | 'N' => List.replicate 9 '0'
  | 'Z' => "UTC".toList
  | 'z' => "+0000".toList
  | 'n' => ['\n']
  | 't' => ['\t']
  | '%' => ['%']
  | c => ['%', c]

/-- Puts the parts of a moment in place of the marks of a format. -/
def write (t : Moment) (seconds : Nat) : Octets → Octets
  | '%' :: '-' :: c :: s =>
    let body := (part t seconds c).dropWhile fun c => c == '0' || c == ' '
    (if body.isEmpty then ['0'] else body) ++ write t seconds s
  | '%' :: '_' :: c :: s =>
    let body := part t seconds c
    let digits := body.dropWhile (· == '0')
    Text.padLeft body.length (if digits.isEmpty then ['0'] else digits) ++ write t seconds s
  | '%' :: c :: s => part t seconds c ++ write t seconds s
  | c :: s => c :: write t seconds s
  | [] => []

/-- The seconds of a date with a time behind it, if there is one. -/
def secondsOf? (s : Octets) : Option Nat := do
  let words := (Text.splitOn ' ' s).filter (!·.isEmpty)
  let words := words.filter fun w => w != "UTC".toList && w != ['Z']
  match words with
  | [('@' :: digits)] => Text.toNat? digits
  | date :: rest =>
    let (date, time) := match Text.splitOnce? 'T' date with
      | some (date, time) => (date, some time)
      | none => (date, rest.head?)
    match (Text.splitOn '-' date).map Text.toNat? with
    | [some year, some month, some day] =>
      let isLeap := year % 4 = 0 ∧ (year % 100 ≠ 0 ∨ year % 400 = 0)
      let longest := if month = 2 then (if isLeap then 29 else 28)
        else if [4, 6, 9, 11].contains month then 30 else 31
      if month = 0 || month > 12 || day = 0 || day > longest || year < 1970 then none
      else
        let y := if month ≤ 2 then year - 1 else year
        let shifted := if month > 2 then month - 3 else month + 9
        let days := 365 * y + y / 4 - y / 100 + y / 400 + (153 * shifted + 2) / 5 + day - 1 - 719468
        let clock ← match time with
          | none => some 0
          | some time => match (Text.splitOn ':' time).map Text.toNat? with
            | [some h, some m] => some (3600 * h + 60 * m)
            | [some h, some m, some s] => some (3600 * h + 60 * m + s)
            | _ => none
        return 86400 * days + clock
    | _ => none
  | [] => none

end Moment

/-- Tells a time. -/
def date : Task Nat := do
  let g ← given (.ofLetters "d:f:I:Rr:s:u"
    [("date", 'd'), ("iso-8601", 'i'), ("rfc-email", 'R'), ("reference", 'r'), ("universal", 'u'),
      ("utc", 'u'), ("set", 's')])
  let seconds ← match g.value? 'd' with
    | none => pure (← Task.tree).clock
    | some s =>
      if s = "now".toList || s.isEmpty then pure (← Task.tree).clock
      else match Moment.secondsOf? s with
        | some n => pure n
        | none => Task.fail 1 (("invalid date " : Text) ++ inQuotes s)
  let seconds ← match g.value? 'r' with
    | none => pure seconds
    | some name => do
      match ← entryOf name true with
      | .ok (_, entry) => pure (EntryText.modified entry)
      | .error e => Task.fail 1 (name ++ (": " : Text) ++ e.brief)
  let iso (s : Octets) : Octets := match String.ofList s with
    | "seconds" | "s" => "%Y-%m-%dT%H:%M:%S+00:00".toList
    | "minutes" | "m" => "%Y-%m-%dT%H:%M+00:00".toList
    | "hours" | "h" => "%Y-%m-%dT%H+00:00".toList
    | _ => "%F".toList
  let format ← match g.operands with
    | [] =>
      pure (if g.has 'R' then "%a, %d %b %Y %H:%M:%S +0000".toList
        else match (g.value? 'I').or (g.value? 'i') with
          | some s => iso s
          | none => "%a %b %e %H:%M:%S UTC %Y".toList)
    | ['+' :: format] => pure format
    | [s] => Task.fail 1 (("invalid date " : Text) ++ inQuotes s)
    | _ => failUsage 1 (("extra operand " : Text) ++ inQuotes (g.operands.getD 1 []))
  Task.print ((Moment.ofSeconds seconds).write seconds format ++ ['\n'])
  return 0

/-- Fails if there are operands where there can be none. -/
def noOperands (g : Given) : Task Unit := do
  match g.operands with
  | [] => return
  | extra :: _ => failUsage 1 (("extra operand " : Text) ++ inQuotes extra)

/-- Says what system it is. -/
def uname : Task Nat := do
  let g ← given (.ofLetters "asnrvmpio"
    [("all", 'a'), ("kernel-name", 's'), ("nodename", 'n'), ("kernel-release", 'r'),
      ("kernel-version", 'v'), ("machine", 'm'), ("operating-system", 'o')])
  noOperands g
  let facts := [('s', "Linux"), ('n', "localhost"), ('r', "6.1.0"), ('v', "#1 SMP"), ('m', "x86_64"),
    ('o', "GNU/Linux")]
  let wanted := facts.filter fun (c, _) => g.has 'a' || g.has c || g.options.isEmpty && c == 's'
  Task.print ([' '].intercalate (wanted.map (·.2.toList)) ++ ['\n'])
  return 0

/-- Says a fact that never changes. -/
def fact (s : String) : Task Nat := do
  let g ← given (.ofLetters "")
  noOperands g
  Task.print (s.toList ++ ['\n'])
  return 0

/-- Says who runs the program. -/
def user : Task Nat := do
  let g ← given (.ofLetters "agGnruzZ"
    [("group", 'g'), ("groups", 'G'), ("name", 'n'), ("real", 'r'), ("user", 'u'), ("zero", 'z')])
  match g.operands.find? (· != "root".toList) with
  | some name => Task.fail 1 (inQuotes name ++ (": no such user" : Text))
  | none => pure ()
  let number := g.has 'u' || g.has 'g' || g.has 'G'
  Task.print ((if !number then "uid=0(root) gid=0(root) groups=0(root)"
    else if g.has 'n' then "root" else "0").toList ++ ['\n'])
  return 0

/-- Says the name of the host. -/
def hostname : Task Nat := do
  let _ ← given (.ofLetters "adfiIsy")
  Task.print "localhost\n"
  return 0

def tty : Task Nat := do
  let g ← given { OptTable.ofLetters "s" [("silent", 's'), ("quiet", 's')] with code := 2 }
  noOperands g
  if !g.has 's' then Task.print "not a tty\n"
  return 1

/-- Copies a number of blocks. -/
def dd : Task Nat := do
  let args ← Task.args
  let settings := args.filterMap (Text.splitOnce? '=')
  match args.find? fun s => !s.any (· == '=') with
  | some bad => failUsage 1 (("unrecognized operand " : Text) ++ inQuotes bad)
  | none => pure ()
  let value (name : String) : Option Octets := (settings.find? (·.1 == name.toList)).map (·.2)
  let amount (name : String) : Task (Option Nat) := do
    match value name with
    | none => return none
    | some s => match sizeOf? s with
      | some n => return some n
      | none => Task.fail 1 (("invalid number: " : Text) ++ inQuotes s)
  let size := max 1 ((← amount "bs").getD ((← amount "ibs").getD 512))
  let count ← amount "count"
  let skip := (← amount "skip").getD 0
  let seek := (← amount "seek").getD 0
  let source := (value "if").getD ['-']
  let content ← match ← Task.contentOf source with
    | .ok s => pure s
    | .error e => Task.fail 1 (("failed to open " : Text) ++ inQuotes source ++ (": " : Text) ++ e.brief)
  let s := content.drop (skip * size)
  let s := match count with
    | some n => s.take (n * size)
    | none => s
  match value "of" with
  | none => Task.print s
  | some target => do
    let keeps := (value "conv").any fun modes => (Text.splitOn ',' modes).contains "notrunc".toList
    let old : Octets := match (← Task.tree).read (Octets.path target) with
      | .ok content => .ofBytes content.toBytes
      | .error _ => []
    let front := (old ++ List.replicate (seek * size - old.length) '\x00').take (seek * size)
    let back := if keeps then old.drop (seek * size + s.length) else []
    let done ← attempt (("failed to open " : Text) ++ inQuotes target)
      (·.store (Octets.path target) (.ofBytes (Octets.toBytes (front ++ s ++ back))))
    if !done then Task.exit 1
  if value "status" != some "none".toList then
    let full := Text.ofNat (s.length / size)
    let part := if s.length % size = 0 then ['0'] else ['1']
    let lines := full ++ '+' :: part
    Task.writeTo 2 (lines ++ (" records in\n" : Text) ++ lines ++ (" records out\n" : Text))
    if value "status" != some "noxfer".toList then
      Task.writeTo 2 (Text.ofNat s.length ++ (" bytes copied, 0.0001 s, 1.0 MB/s\n" : Text))
  return 0

end CompileFail.Utility
