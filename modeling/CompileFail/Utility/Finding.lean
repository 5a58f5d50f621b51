import CompileFail.Utility.Listing

/-! The program `find`, which goes through directory trees with an expression. -/

namespace CompileFail.Utility.Finding

/-- What is asked of an entry, or done with it. -/
inductive Query where
  | name (ignoresCase : Bool) (pattern : Octets)
  | path (ignoresCase : Bool) (pattern : Octets)
  | kind (letters : List Char)
  | isEmpty
  | isExecutable
  | newerThan (time : Nat)
  /-- A size compared with a number of units. -/
  | size (sign : Char) (count unit : Nat)
  | always (answer : Bool)
  | print (ending : Char)
  | printFormat (format : Octets)
  | delete
  /-- Runs a program for an entry, or once for all of them if `together` is set. -/
  | exec (words : List Octets) (together : Bool)
  | prune
  | quit
  | not (q : Query)
  | both (a b : Query)
  | either (a b : Query)
  | listed (a b : Query)

/-- Whether a query has any effect of its own; otherwise what it accepts is printed. -/
def Query.acts : Query → Bool
  | print _ | printFormat _ | delete | exec .. | quit => true
  | not q => q.acts
  | both a b | either a b | listed a b => a.acts || b.acts
  | _ => false

/-- What the words of an expression leave behind besides the query. -/
structure Reading where
  rest : List Octets
  last : Octets := []
  least : Nat := 0
  most : Option Nat := none
  fromBelow : Bool := false

abbrev Read := StateT Reading Task

def fail {α : Type} (message : Octets) : Read α := Task.fail 1 message

def argument (name : Octets) : Read Octets := do
  match (← get).rest with
  | word :: rest => do
    modify ({ · with rest := rest })
    return word
  | [] => fail (("missing argument to `" : Text) ++ name ++ ['\''])

/-- A number of an option. -/
def levelOf (name : Octets) : Read Nat := do
  let word ← argument name
  match Text.toNat? word with
  | some n => return n
  | none => fail (("Expected a positive decimal integer argument to " : Text) ++ name ++
      (", but got " : Text) ++ inQuotes word)

/-- The words of a command up to its end. -/
def command (name : Octets) : List Octets → List Octets → Read (List Octets × Bool)
  | seen, [] => do
    let _ := seen
    fail (("missing argument to `" : Text) ++ name ++ ['\''])
  | seen, word :: rest =>
    if word = [';'] then do
      modify ({ · with rest := rest })
      return (seen.reverse, false)
    else if word = ['+'] && seen.head? == some "\x7b\x7d".toList then do
      modify ({ · with rest := rest })
      return (seen.tail.reverse, true)
    else command name (word :: seen) rest

/-- The query of one word and what belongs to it. -/
def simple (word : Octets) : Read Query := do
  match String.ofList word with
  | "-name" => return .name false (← argument word)
  | "-iname" => return .name true (← argument word)
  | "-path" | "-wholename" => return .path false (← argument word)
  | "-ipath" => return .path true (← argument word)
  | "-type" | "-xtype" => do
    let letters ← argument word
    let known (c : Char) : Bool := c == 'f' || c == 'd' || c == 'l' || c == 'c' || c == 'b' || c == 'p' || c == 's'
    match letters.find? fun c => !known c && c != ',' with
    | some c => fail (("Unknown argument to -type: " : Text) ++ [c])
    | none => return .kind letters
  | "-empty" => return .isEmpty
  | "-executable" => return .isExecutable
  | "-perm" => do
    let mode ← argument word
    let asks := mode.any fun c => c == 'x' || c == '1' || c == '5' || c == '7'
    return if asks then .isExecutable else .always true
  | "-newer" => do
    let name ← argument word
    match ← entryOf name true with
    | .ok (_, entry) => return .newerThan (EntryText.modified entry)
    | .error e => fail (inQuotes name ++ (": " : Text) ++ e.brief)
  | "-size" => do
    let size ← argument word
    let (sign, body) := match size with
      | '+' :: s => ('+', s)
      | '-' :: s => ('-', s)
      | s => ('=', s)
    let digits := body.takeWhile Char.isDigit
    let unit? := match String.ofList (body.drop digits.length) with
      | "" | "b" => some 512
      | "c" => some 1
      | "w" => some 2
      | "k" => some 1024
      | "M" => some 1048576
      | _ => none
    match Text.toNat? digits, unit? with
    | some n, some unit => return .size sign n unit
    | _, _ => fail (("invalid -size type `" : Text) ++ body.take 1 ++ ['\''])
  | "-true" => return .always true
  | "-false" => return .always false
  | "-print" => return .print '\n'
  | "-print0" => return .print '\x00'
  | "-printf" => return .printFormat (← argument word)
  | "-delete" => do
    modify ({ · with fromBelow := true })
    return .delete
  | "-exec" | "-execdir" => do
    let (words, together) ← command word [] (← get).rest
    if words.isEmpty then fail (("missing argument to `" : Text) ++ word ++ ['\''])
    return .exec words together
  | "-prune" => return .prune
  | "-quit" => return .quit
  | "-maxdepth" => do
    let n ← levelOf word
    modify ({ · with most := some n })
    return .always true
  | "-mindepth" => do
    let n ← levelOf word
    modify ({ · with least := n })
    return .always true
  | "-depth" => do
    modify ({ · with fromBelow := true })
    return .always true
  | "-xdev" | "-mount" | "-noleaf" | "-follow" | "-daystart" | "-nowarn" => return .always true
  | "-mtime" | "-ctime" | "-atime" | "-mmin" | "-cmin" | "-amin" | "-user" | "-group" | "-links" |
      "-uid" | "-gid" => do
    let _ ← argument word
    return .always true
  | _ => fail (("unknown predicate `" : Text) ++ word ++ ['\''])

mutual

/-- Queries with commas between them. -/
def lists : (fuel : Nat) → Read Query
  | 0 => return .always true
  | fuel + 1 => do
    let first ← alternatives fuel
    match (← get).rest with
    | [','] :: rest => do
      modify ({ · with rest := rest, last := [','] })
      return .listed first (← lists fuel)
    | _ => return first

def alternatives : (fuel : Nat) → Read Query
  | 0 => return .always true
  | fuel + 1 => do
    let first ← conjunction fuel
    match (← get).rest with
    | word :: rest =>
      if word = ['-', 'o'] || word = "-or".toList then do
        modify ({ · with rest := rest, last := word })
        return .either first (← alternatives fuel)
      else return first
    | [] => return first

def conjunction : (fuel : Nat) → Read Query
  | 0 => return .always true
  | fuel + 1 => do
    let first ← single fuel
    match (← get).rest with
    | word :: rest =>
      if word = ['-', 'a'] || word = "-and".toList then do
        modify ({ · with rest := rest, last := word })
        return .both first (← conjunction fuel)
      else if word = ['-', 'o'] || word = "-or".toList || word = [')'] || word = [','] then return first
      else return .both first (← conjunction fuel)
    | [] => return first

def single : (fuel : Nat) → Read Query
  | 0 => return .always true
  | fuel + 1 => do
    match (← get).rest with
    | [] => fail (("expected an expression after " : Text) ++ inQuotes (← get).last)
    | word :: rest => do
      modify ({ · with rest := rest, last := word })
      match String.ofList word with
      | "!" | "-not" => return .not (← single fuel)
      | "(" => do
        let inner ← lists fuel
        match (← get).rest with
        | [')'] :: rest => do
          modify ({ · with rest := rest })
          return inner
        | _ =>
          fail (("invalid expression; expected to find a ')' but didn't see one. Perhaps you need " : Text) ++
            ("an extra predicate after '('" : Text))
      | _ =>
        if word.head? = some '-' then simple word
        else do
          Task.complain (("paths must precede expression: `" : Text) ++ word ++ ['\''])
          Task.exit 1

end

/-- Something that was found. -/
structure Found where
  name : Octets
  /-- The name that the search started from. -/
  top : Octets
  place : Place
  entry : Entry
  depth : Nat

/-- What the search has come to. -/
structure Progress where
  pruned : Bool := false
  stopped : Bool := false
  /-- The names for each command that is run once, the last ones first. -/
  kept : List (List Octets × List Octets) := []
  failed : Bool := false

abbrev Search := StateT Progress Task

/-- Whether a text fits a pattern of a shell. -/
def fits (ignoresCase : Bool) (pattern s : Octets) : Bool :=
  let fold (s : Octets) : Octets := if ignoresCase then Text.asciiLower s else s
  let rec glyphs : Octets → Script.Pattern
    | '\\' :: c :: s => ⟨c, true⟩ :: glyphs s
    | c :: s => ⟨c, false⟩ :: glyphs s
    | [] => []
  Script.Pattern.fits { caret := true } (glyphs (fold pattern)) (fold s)

/-- A format with what is known about a find. -/
def format (f : Found) : (fuel : Nat) → Octets → Octets
  | 0, s => s
  | _, [] => []
  | fuel + 1, '%' :: c :: s =>
    (match c with
      | 'p' => f.name
      | 'f' => baseName f.name
      | 'h' => let dir := (f.name.reverse.dropWhile (· != '/')).reverse.dropLast
        if f.name.any (· == '/') then dir else ['.']
      | 'P' => (f.name.drop f.top.length).dropWhile (· == '/')
      | 'H' => f.top
      | 's' => Text.ofNat (EntryText.size f.entry)
      | 'd' => Text.ofNat f.depth
      | 'y' => [if (EntryText.letter f.entry) = '-' then 'f' else EntryText.letter f.entry]
      | 'm' => (EntryText.mode f.entry).toList
      | 'l' => match f.entry with
        | .link target => target
        | _ => []
      | '%' => ['%']
      | c => ['%', c]) ++ format f fuel s
  | fuel + 1, '\\' :: c :: s =>
    (match c with
      | 'n' => ['\n']
      | 't' => ['\t']
      | '0' => ['\x00']
      | '\\' => ['\\']
      | c => ['\\', c]) ++ format f fuel s
  | fuel + 1, c :: s => c :: format f fuel s

/-- Runs a command and says whether it went well. -/
def runCommand (launch : Launcher) (words : List Octets) : Search Bool := do
  match ← (Task.start launch words : Task _) with
  | .ok status => return status == 0
  | .error e => do
    (Task.complain (inQuotes (words.headD []) ++ (": " : Text) ++ e.brief) : Task Unit)
    return false

/-- Asks a query of a find. -/
def ask (launch : Launcher) (f : Found) : Query → Search Bool
  | .name ignoresCase pattern => return fits ignoresCase pattern (baseName f.name)
  | .path ignoresCase pattern => return fits ignoresCase pattern f.name
  | .kind letters =>
    return letters.any fun c => match f.entry with
      | .file .. => c == 'f'
      | .dir => c == 'd'
      | .link _ => c == 'l'
      | .device => c == 'c'
  | .isEmpty => do
    match f.entry with
    | .file content .. => return content.size == 0
    | .dir => return ((← getThe Machine).tree.children f.place).isEmpty
    | _ => return false
  | .isExecutable => return match f.entry with
    | .file _ executable _ => executable
    | _ => true
  | .newerThan time => return EntryText.modified f.entry > time
  | .size sign count unit =>
    let n := (EntryText.size f.entry + unit - 1) / unit
    return match sign with
      | '+' => n > count
      | '-' => n < count
      | _ => n == count
  | .always answer => return answer
  | .print ending => do
    (Task.print (f.name ++ [ending]) : Task Unit)
    return true
  | .printFormat s => do
    (Task.print (format f (s.length + 1) s) : Task Unit)
    return true
  | .delete => do
    let done ← (attempt (cannot "delete" f.name) fun tree =>
      if f.entry.isDir then tree.removeDir (Octets.path f.name) else tree.remove (Octets.path f.name) :
        Task Bool)
    if !done then modify ({ · with failed := true })
    return done
  | .exec words true => do
    let p ← get
    let kept :=
      if p.kept.any (·.1 == words) then
        p.kept.map fun (other, names) => if other = words then (other, f.name :: names) else (other, names)
      else p.kept ++ [(words, [f.name])]
    set { p with kept := kept }
    return true
  | .exec words false =>
    runCommand launch (words.map fun word => Text.replace "\x7b\x7d" f.name word true)
  | .prune => do
    modify ({ · with pruned := true })
    return true
  | .quit => do
    modify ({ · with stopped := true })
    return true
  | .not q => do
    let answer ← ask launch f q
    return !answer
  | .both a b => do
    let first ← ask launch f a
    if first && !(← get).stopped then ask launch f b else return false
  | .either a b => do
    let first ← ask launch f a
    if first || (← get).stopped then return true else ask launch f b
  | .listed a b => do
    let _ ← ask launch f a
    ask launch f b

/-- Asks a query of an entry and of all below it. -/
def visit (launch : Launcher) (r : Reading) (q : Query) : (levels : Nat) → Found → Search Unit
  | 0, _ => return
  | levels + 1, f => do
    let here : Search Unit := do
      if r.least ≤ f.depth && !(← get).stopped then
        let _ ← ask launch f q
    if !r.fromBelow then here
    let p ← get
    set { p with pruned := false }
    let deeper := match r.most with
      | some n => decide (f.depth < n)
      | none => true
    if f.entry.isDir && deeper && !p.pruned && !p.stopped then
      ((← getThe Machine).tree.children f.place).forM fun (name, entry) => do
        if !(← get).stopped then
          visit launch r q levels
            { name := within f.name name, top := f.top
              place := f.place ++ [name], entry := entry, depth := f.depth + 1 }
    if r.fromBelow then here

def find (launch : Launcher) : Task Nat := do
  let args ← Task.args
  let args := args.dropWhile fun s => s == ['-', 'L'] || s == ['-', 'P'] || s == ['-', 'H']
  let isExpression (s : Octets) : Bool := match s with
    | '-' :: _ :: _ => true
    | ['('] | ['!'] | [')'] | [','] => true
    | _ => false
  let tops := args.takeWhile (!isExpression ·)
  let words := args.drop tops.length
  let size := 4 * words.length + 8
  let (query, r) ← (if words.isEmpty then pure (Query.print '\n') else lists size).run { rest := words }
  let query := if query.acts then query else .both query (.print '\n')
  let search : Search Unit := (if tops.isEmpty then [['.']] else tops).forM fun top => do
    let tree := (← getThe Machine).tree
    match tree.find (Octets.path top) false with
    | .ok (place, entry) =>
      if !(← get).stopped then
        visit launch r query (tree.height + 2)
          { name := top, top := top, place := place, entry := entry, depth := 0 }
    | .error e => do
      (Task.complain (inQuotes top ++ (": " : Text) ++ e.brief) : Task Unit)
      modify ({ · with failed := true })
  let finish : Search Unit := do
    (← get).kept.forM fun (words, names) => do
      let fine ← runCommand launch (words ++ names.reverse)
      if !fine then modify ({ · with failed := true })
  let (_, p) ← (do search; finish : Search Unit).run {}
  return if p.failed then 1 else 0

end CompileFail.Utility.Finding
