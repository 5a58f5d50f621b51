import CompileFail.Utility.Awk.Reader
import CompileFail.Utility.Awk.Value
import CompileFail.Utility.Files

/-! Running `awk` programs: records are read one by one, and the rules that fit are carried out. -/

namespace CompileFail.Utility.Awk

/-- The values of a table by their keys, each with the time at which it was last looked at. -/
structure Table where
  cells : Std.ExtTreeMap Octets (Nat × Value) := ∅
  clock : Nat := 0

namespace Table

def get? (t : Table) (key : Octets) : Option Value := t.cells[key]?.map (·.2)

def insert (t : Table) (key : Octets) (v : Value) : Table :=
  { cells := t.cells.insert key (t.clock, v), clock := t.clock + 1 }

def erase (t : Table) (key : Octets) : Table := { t with cells := t.cells.erase key }

def size (t : Table) : Nat := t.cells.size

/-- A number that scatters keys: each byte is mixed in and then multiplied by a prime. -/
def scatter (key : Octets) : UInt32 :=
  key.foldl (fun h c => (h ^^^ UInt32.ofNat c.toNat) * 16777619) 2166136261

/-- How many lists the keys of a table of a size are kept in. -/
def listCount : (fuel : Nat) → (size count : Nat) → Nat
  | 0, _, count => count
  | fuel + 1, size, count => if size > 12 * count then listCount fuel size (2 * count) else count

/-- The keys in the order in which they are gone through: list by list, and in each list those that
were looked at last first. -/
def keys (t : Table) : List Octets :=
  let count := listCount 32 t.size 64
  let placed := t.cells.toList.map fun (key, (time, _)) => ((scatter key).toNat % count, time, key)
  (placed.mergeSort fun (i, s, _) (j, t, _) => i < j || i == j && t ≤ s).map (·.2.2)

end Table

/-- What a name stands for. -/
inductive Binding where
  | value (v : Value)
  /-- A table, by its number. -/
  | table (id : Nat)
  /-- Nothing yet; if it becomes a table, it is this one. -/
  | open_ (id : Nat)

/-- A file or command that is read. -/
structure Input where
  name : Octets
  rest : Octets

/-- A file or command that is written to. -/
structure Output where
  name : Octets
  isCommand : Bool
  /-- The stream of a file. -/
  stream : Nat
  /-- What is to be read by a command, the last part first. -/
  text : List Octets

structure State where
  functions : List Function
  launch : Launcher
  globals : Std.ExtTreeMap Octets Binding := ∅
  locals : List (Octets × Binding) := []
  tables : Std.ExtTreeMap Nat Table := ∅
  fresh : Nat := 0
  record : Octets := []
  fields : Array Value := #[]
  /-- What is left of the main input, and the arguments that come behind it. -/
  main : Option Octets := none
  arguments : List Octets := []
  readAny : Bool := false
  inputs : List Input := []
  outputs : List Output := []
  /-- What was printed and not yet written, the last part first. -/
  pending : List Octets := []
  seed : Nat := 0
  random : Nat := 1

/-- Why a statement does not come to its end. -/
inductive Stop where
  | next
  | nextFile
  | leave
  | goOn
  | result (v : Value)
  | exit (code : Option Nat)
  | fault (message : Octets)

abbrev Run := ExceptT Stop (StateT State Task)

def fault {α : Type} (message : Octets) : Run α := throw (.fault message)

def task {α : Type} (t : Task α) : Run α := liftM (m := Task) t

/-- Writes what was printed. -/
def flush : Run Unit := do
  let s ← get
  set { s with pending := [] }
  task (Task.print s.pending.reverse.flatten)

/-! Names. -/

def lookup (name : Octets) : Run Binding := do
  let s ← get
  match s.locals.find? (·.1 == name) with
  | some (_, b) => return b
  | none => return s.globals[name]?.getD (.value .unset)

def bind (name : Octets) (b : Binding) : Run Unit :=
  modify fun s =>
    if s.locals.any (·.1 == name) then
      { s with locals := s.locals.map fun (other, old) => (other, if other = name then b else old) }
    else { s with globals := s.globals.insert name b }

def newTable : Run Nat := do
  let s ← get
  set { s with fresh := s.fresh + 1 }
  return s.fresh

/-- The number of the table that a name stands for. -/
def tableOf (name : Octets) : Run Nat := do
  match ← lookup name with
  | .table id => return id
  | .open_ id => do
    bind name (.table id)
    return id
  | .value .unset => do
    let id ← newTable
    bind name (.table id)
    return id
  | .value _ => fault (("can't use scalar " : Text) ++ name ++ (" as array" : Text))

def table (id : Nat) : Run Table := return (← get).tables[id]?.getD {}

def setTable (id : Nat) (t : Table) : Run Unit :=
  modify fun s => { s with tables := s.tables.insert id t }

def valueOf (name : Octets) : Run Value := do
  match ← lookup name with
  | .value v => return v
  | .open_ _ => return .unset
  | .table _ => fault (("illegal reference to array " : Text) ++ name)

def textOf (name : String) : Run Octets := do
  return (← valueOf name.toList).toText "%.6g".toList

def setVar (name : String) (v : Value) : Run Unit := bind name.toList (.value v)

def toText (v : Value) : Run Octets := do
  match v with
  | .num _ => return v.toText (← textOf "CONVFMT")
  | _ => return v.toText []

/-! Records and fields. -/

/-- The pieces between blanks. -/
def blankFields (s : Octets) : List Octets :=
  let (current, done) := s.foldl (fun (current, done) c =>
    if isSpace c then ([], if current.isEmpty then done else current.reverse :: done)
    else (c :: current, done)) (([] : Octets), ([] : List Octets))
  (if current.isEmpty then done else current.reverse :: done).reverse

/-- The pieces between finds of an expression. -/
def regexFields (r : Regex) (s : Octets) : (fuel : Nat) → (start pos : Nat) → List Octets
  | 0, start, _ => [s.drop start]
  | fuel + 1, start, pos =>
    match r.search s pos with
    | none => [s.drop start]
    | some f =>
      if f.finish = f.start then
        if f.finish < s.length then regexFields r s fuel start (f.finish + 1) else [s.drop start]
      else (s.drop start).take (f.start - start) :: regexFields r s fuel f.finish f.finish

def compile (s : Octets) : Run Regex := do
  match Regex.ofText .extended false false (plainRegex s) with
  | .ok r => return r
  | .error e => fault (("regular expression compile failed (" : Text) ++ e ++ (")\n" : Text) ++ s)

/-- Splits a text into fields as a separator says. -/
def split (separator s : Octets) : Run (List Octets) := do
  match separator with
  | [' '] => return blankFields s
  | [] => return s.map fun c => [c]
  | [c] =>
    if s.isEmpty then return [] else return Text.splitOn c s
  | _ => do
    if s.isEmpty then return []
    return regexFields (← compile separator) s (s.length + 1) 0 0

def setRecord (s : Octets) : Run Unit := do
  let parts ← split (← textOf "FS") s
  modify fun st => { st with record := s, fields := (parts.map Value.input).toArray }
  setVar "NF" (.num (Float.ofNat parts.length))

/-- Makes the record anew from its fields. -/
def joinFields (fields : Array Value) : Run Unit := do
  let texts ← fields.toList.mapM toText
  let separator ← textOf "OFS"
  modify fun s => { s with fields := fields, record := separator.intercalate texts }
  setVar "NF" (.num (Float.ofNat fields.size))

def filledTo (n : Nat) (fields : Array Value) : Array Value :=
  fields ++ (List.replicate (n - fields.size) (Value.str [])).toArray

def setField (i : Nat) (v : Value) : Run Unit := do
  if i = 0 then setRecord (← toText v)
  else joinFields ((filledTo i (← get).fields).setIfInBounds (i - 1) v)

def field (i : Nat) : Run Value := do
  let s ← get
  if i = 0 then return .input s.record else return s.fields.getD (i - 1) .unset

/-! Input. -/

/-- The first record of a text, and what is left behind it. -/
def firstRecord (separator s : Octets) : Run (Option (Octets × Octets)) := do
  match separator with
  | [] => do
    let s := s.dropWhile (· == '\n')
    if s.isEmpty then return none
    match Text.splitOnce? '\x00' (Text.replace "\n\n" ['\x00'] s false) with
    | some (first, rest) => return some (first, rest.dropWhile (· == '\n'))
    | none => return some (if s.getLast? = some '\n' then s.dropLast else s, [])
  | [c] => do
    if s.isEmpty then return none
    let first := s.takeWhile (· != c)
    return some (first, s.drop (first.length + 1))
  | _ => do
    if s.isEmpty then return none
    match (← compile separator).search s with
    | some f =>
      if f.finish > f.start then return some (s.take f.start, s.drop f.finish)
      else return some (s, [])
    | none => return some (if s.getLast? = some '\n' then s.dropLast else s, [])

/-- Whether an argument sets a variable. -/
def setting? (s : Octets) : Option (Octets × Octets) :=
  match Text.splitOnce? '=' s with
  | some (name, value) =>
    if (name.head?.map isNameStart).getD false && name.all isNamePart then some (name, value) else none
  | none => none

/-- A text as it is written between quotes, with its escapes undone. -/
def unescaped (s : Octets) : Octets :=
  ((quoted (2 * s.length + 4) ((s.flatMap fun c => if c = '"' then ['\\', '"'] else [c]) ++ ['"'])).map
    (·.1)).getD s

def setGiven (name value : Octets) : Run Unit := bind name (.value (.input (unescaped value)))

/-- The next record of the main input. -/
def nextRecord : (fuel : Nat) → Run (Option Octets)
  | 0 => return none
  | fuel + 1 => do
    let s ← get
    match s.main with
    | some rest => do
      match ← firstRecord (← textOf "RS") rest with
      | some (record, rest) => do
        modify fun s => { s with main := some rest }
        return some record
      | none => do
        modify fun s => { s with main := none }
        nextRecord fuel
    | none =>
      match s.arguments with
      | [] =>
        if s.readAny then return none
        else do
          set { s with readAny := true, main := some (← task Task.input) }
          nextRecord fuel
      | arg :: rest => do
        set { s with arguments := rest }
        if arg.isEmpty then nextRecord fuel
        else match setting? arg with
          | some (name, value) => do
            setGiven name value
            nextRecord fuel
          | none => do
            match ← task (Task.contentOf arg) with
            | .ok content => do
              modify fun s => { s with readAny := true, main := some content }
              setVar "FILENAME" (.str arg)
              setVar "FNR" (.num 0)
              nextRecord fuel
            | .error e =>
              throw (.fault (("\x00cannot open \"" : Text) ++ arg ++ ("\" (" : Text) ++ e.brief ++ [')']))

def countUp (name : String) : Run Unit := do
  setVar name (.num ((← valueOf name.toList).toNumber + 1))

/-- The next record of the main input, counted. -/
def mainRecord : Run (Option Octets) := do
  match ← nextRecord (2 * (← get).arguments.length + 4) with
  | some record => do
    countUp "NR"
    countUp "FNR"
    return some record
  | none => return none

/-- Runs the text of a command in a shell, with an input of its own if there is one. -/
def runCommand (text : Octets) (input? : Option Octets) (out? : Option Nat) : Run Nat := do
  let launch := (← get).launch
  let id? ← task (do
    match input? with
    | some input => do
      let (id, m) := (← getThe Machine).addPipe input
      set m
      return some id
    | none => return none : Task (Option Nat))
  let status ← task (fun p =>
    let ds := match id? with
      | some id => p.descriptors.set 0 id
      | none => p.descriptors
    let ds := match out? with
      | some id => ds.set 1 id
      | none => ds
    Task.start launch ["sh".toList, "-c".toList, text] { p with descriptors := ds } : Task _)
  match status with
  | .ok status => return Task.codeOf status
  | .error _ => return 127

/-- The input of a name, which is opened if it is not open; `none` if that cannot be done. -/
def inputOf (name : Octets) (isCommand : Bool) : Run (Option Octets) := do
  match (← get).inputs.find? (·.name == name) with
  | some input => return some input.rest
  | none => do
    let text? : Option Octets ← if isCommand then do
        flush
        let id ← task (do
          let (id, m) := (← getThe Machine).addPipe []
          set m
          return id : Task Nat)
        let _ ← runCommand name none (some id)
        let m ← task (getThe Machine)
        pure (some (m.unread id))
      else do
        pure (← task (Task.contentOf name)).toOption
    match text? with
    | some text => do
      modify fun s => { s with inputs := ⟨name, text⟩ :: s.inputs }
      return some text
    | none => return none

/-! Output. -/

def outputOf (name : Octets) (isCommand appends : Bool) : Run Output := do
  match (← get).outputs.find? fun o => o.name == name && o.isCommand == isCommand with
  | some o => return o
  | none => do
    if isCommand then
      flush
      let o : Output := ⟨name, true, 0, []⟩
      modify fun s => { s with outputs := s.outputs ++ [o] }
      return o
    else
      match (← task (getThe Machine)).openFile (Octets.path name) (if appends then .appending else .writing) with
      | .ok (id, m) => do
        task (set m)
        let o : Output := ⟨name, false, id, []⟩
        modify fun s => { s with outputs := s.outputs ++ [o] }
        return o
      | .error e =>
        throw (.fault (("\x00cannot open \"" : Text) ++ name ++ ("\" for output (" : Text) ++ e.brief ++ [')']))

def write (name text : Octets) (isCommand appends : Bool) : Run Unit := do
  if !isCommand && (name = ['-'] || name = "/dev/stdout".toList) then
    modify fun s => { s with pending := text :: s.pending }
  else if !isCommand && name = "/dev/stderr".toList then task (Task.writeTo 2 text)
  else
    let o ← outputOf name isCommand appends
    if isCommand then
      modify fun s => { s with outputs := s.outputs.map fun other =>
        if other.name = name && other.isCommand then { other with text := text :: other.text } else other }
    else task (modify (·.write o.stream text))

/-- Closes what is open under a name. -/
def close (name : Octets) : Run Nat := do
  let s ← get
  let closing := s.outputs.filter (·.name == name)
  let wasOpen := !closing.isEmpty || s.inputs.any (·.name == name)
  set { s with
    outputs := s.outputs.filter (·.name != name), inputs := s.inputs.filter (·.name != name) }
  let codes ← closing.mapM fun o =>
    if o.isCommand then do
      flush
      runCommand o.name (some o.text.reverse.flatten) none
    else return 0
  return if wasOpen then codes.headD 0 else 255

/-! Expressions. -/

/-- What stands for a find in the text of an exchange. -/
def putIn (found : Octets) : Octets → Octets
  | '\\' :: '&' :: s => '&' :: putIn found s
  | '\\' :: '\\' :: s => '\\' :: putIn found s
  | '&' :: s => found ++ putIn found s
  | c :: s => c :: putIn found s
  | [] => []

/-- A part of a text, from a place on that is counted from 1. -/
def part (s : Octets) (start : Float) (size? : Option Float) : Octets :=
  let round (x : Float) : Int :=
    let down := truncated x
    let down := if Float.ofInt down > x then down - 1 else down
    let rest := x - Float.ofInt down
    if rest > 0.5 || rest == 0.5 && down % 2 != 0 then down + 1 else down
  let first := round start
  let last : Int := match size? with
    | some size => if size.isNaN then first else first + round size
    | none => s.length + 1
  let low := max first 1
  let high := min last (s.length + 1)
  if high ≤ low then [] else (s.drop (low.toNat - 1)).take (high - low).toNat

def nextRandom (n : Nat) : Nat := (1103515245 * n + 12345) % 2147483648

mutual

def eval : (fuel : Nat) → Expr → Run Value
  | 0, _ => fault "function call nesting too deep"
  | fuel + 1, e => do
    match e with
    | .num x => return .num x
    | .str s => return .str s
    | .regex r => return .ofBool (r.isIn (← get).record)
    | .var name => valueOf name
    | .field index => do
      let i ← number fuel index
      if i < 0 then fault (("negative field index $" : Text) ++ (Value.num i).toText "%.6g".toList)
      field (truncated i).toNat
    | .item array index => do
      let key ← subscript fuel index
      let id ← tableOf array
      let t ← table id
      match t.get? key with
      | some v => do
        setTable id (t.insert key v)
        return v
      | none => do
        setTable id (t.insert key .unset)
        return .unset
    | .group items => match items with
      | [e] => eval fuel e
      | _ => do return .str (← subscript fuel items)
    | .assign target op value => do
      let v ← match op with
        | none => eval fuel value
        | some op => do
          let right ← number fuel value
          let left ← number fuel target
          pure (.num (arithmetic op left right))
      store fuel target v
      return v
    | .choice test yes no => do
      if (← eval fuel test).isTrue then eval fuel yes else eval fuel no
    | .and a b => do
      if (← eval fuel a).isTrue then return .ofBool (← eval fuel b).isTrue else return .num 0
    | .or a b => do
      if (← eval fuel a).isTrue then return .num 1 else return .ofBool (← eval fuel b).isTrue
    | .not e => do return .ofBool !(← eval fuel e).isTrue
    | .minus e => do return .num (-(← number fuel e))
    | .plus e => do return .num (← number fuel e)
    | .arith op a b => do
      let x ← number fuel a
      let y ← number fuel b
      return .num (arithmetic op x y)
    | .compare op a b => do
      let x ← eval fuel a
      let y ← eval fuel b
      return .ofBool (x.compare (← textOf "CONVFMT") op y)
    | .fits negated e pattern => do
      let s ← text fuel e
      let r ← regexOf fuel pattern
      return .ofBool (r.isIn s != negated)
    | .contains index array => do
      let key ← subscript fuel index
      return .ofBool ((← table (← tableOf array)).get? key).isSome
    | .count target up before => do
      let old ← number fuel target
      let new := if up then old + 1 else old - 1
      store fuel target (.num new)
      return .num (if before then new else old)
    | .call name args => call fuel name args
    | .builtin name args => builtin fuel name args
    | .concat a b => do
      let s ← text fuel a
      let t ← text fuel b
      return .str (s ++ t)
    | .getline origin target => do
      match origin with
      | .main => do
        match ← mainRecord with
        | none => return .num 0
        | some record => do
          match target with
          | none => setRecord record
          | some target => store fuel target (.input record)
          return .num 1
      | .file name => fetch fuel (← text fuel name) false target
      | .command c => fetch fuel (← text fuel c) true target

def number : (fuel : Nat) → Expr → Run Float
  | 0, _ => fault "function call nesting too deep"
  | fuel + 1, e => return (← eval fuel e).toNumber

def text : (fuel : Nat) → Expr → Run Octets
  | 0, _ => fault "function call nesting too deep"
  | fuel + 1, e => do toText (← eval fuel e)

/-- Reads a record from a file or a command. -/
def fetch : (fuel : Nat) → Octets → Bool → Option Expr → Run Value
  | 0, _, _, _ => return .num (-1)
  | fuel + 1, name, isCommand, target => do
    match ← inputOf name isCommand with
    | none => return .num (-1)
    | some rest => do
      match ← firstRecord (← textOf "RS") rest with
      | none => return .num 0
      | some (record, rest) => do
        modify fun s => { s with inputs := s.inputs.map fun input =>
          if input.name = name then { input with rest := rest } else input }
        if isCommand then countUp "NR"
        match target with
        | none => setRecord record
        | some target => store fuel target (.input record)
        return .num 1

/-- The key of a table for some values. -/
def subscript : (fuel : Nat) → List Expr → Run Octets
  | 0, _ => return []
  | _, [] => return []
  | fuel + 1, [e] => text fuel e
  | fuel + 1, e :: rest => do
    let first ← text fuel e
    return first ++ (← textOf "SUBSEP") ++ (← subscript fuel rest)

/-- The expression to match with: one that is written as such, or one that a text is. -/
def regexOf : (fuel : Nat) → Expr → Run Regex
  | 0, _ => fault "function call nesting too deep"
  | fuel + 1, e => match e with
    | .regex r => return r
    | .group [.regex r] => return r
    | e => do compile (← text fuel e)

def store : (fuel : Nat) → Expr → Value → Run Unit
  | 0, _, _ => return
  | fuel + 1, target, v => do
    match target with
    | .var name => do
      if let .table _ ← lookup name then fault (("illegal reference to array " : Text) ++ name)
      bind name (.value v)
      if name = "NF".toList then
        let n := (truncated v.toNumber).toNat
        joinFields ((filledTo n (← get).fields).take n)
    | .field index => do
      let i ← number fuel index
      if i < 0 then fault (("negative field index $" : Text) ++ (Value.num i).toText "%.6g".toList)
      setField (truncated i).toNat v
    | .item array index => do
      let key ← subscript fuel index
      let id ← tableOf array
      setTable id ((← table id).insert key v)
    | .group [e] => store fuel e v
    | _ => return

/-- Calls a function of the program. -/
def call : (fuel : Nat) → Octets → List Expr → Run Value
  | 0, _, _ => fault "function call nesting too deep"
  | fuel + 1, name, args => do
    match (← get).functions.find? (·.name == name) with
    | none => fault (("function " : Text) ++ name ++ (" never defined" : Text))
    | some f => do
      let given ← bindings fuel args
      let missing ← (f.params.drop given.length).mapM fun _ => do
        return Binding.open_ (← newTable)
      let saved := (← get).locals
      modify fun s => { s with locals := f.params.zip (given ++ missing) }
      let result ← (do
        exec fuel f.body
        return Value.unset : Run Value).tryCatch fun stop =>
          match stop with
          | .result v => return v
          | stop => throw stop
      modify fun s => { s with locals := saved }
      return result

/-- What arguments stand for; a name of a table stands for the table itself. -/
def bindings : (fuel : Nat) → List Expr → Run (List Binding)
  | 0, _ => return []
  | _, [] => return []
  | fuel + 1, e :: rest => do
    let first ← match e with
      | .var name => do
        match ← lookup name with
        | .value .unset => do
          let id ← newTable
          bind name (.open_ id)
          pure (.open_ id)
        | b => pure b
      | e => do pure (.value (← eval fuel e))
    return first :: (← bindings fuel rest)

/-- A function of the language itself. -/
def builtin : (fuel : Nat) → String → List Expr → Run Value
  | 0, _, _ => fault "function call nesting too deep"
  | fuel + 1, name, args => do
    let ofNat (n : Nat) : Run Value := return .num (Float.ofNat n)
    let numeric (f : Float → Float) : Run Value := do
      return .num (f (← number fuel (args.headD (.num 0))))
    match name, args with
    | "length", [] => do ofNat (← get).record.length
    | "length", [e] => do
      match e with
      | .var name => do
        match ← lookup name with
        | .table id => ofNat (← table id).size
        | .open_ _ => ofNat 0
        | .value v => ofNat (← toText v).length
      | e => ofNat (← text fuel e).length
    | "substr", e :: start :: rest => do
      let s ← text fuel e
      let start ← number fuel start
      let size ← match rest with
        | [] => pure none
        | n :: _ => some <$> number fuel n
      return .str (part s start size)
    | "index", [e, sought] => do
      let s ← text fuel e
      let t ← text fuel sought
      let found := (List.range (s.length + 1)).find? fun i => t.isPrefixOf (s.drop i)
      ofNat ((found.map (· + 1)).getD 0)
    | "split", e :: target :: rest => do
      let s ← text fuel e
      let array ← match target with
        | .var name => pure name
        | _ => fault "split needs an array"
      let parts ← match rest with
        | [] => do split (← textOf "FS") s
        | .regex r :: _ => pure (if s.isEmpty then [] else regexFields r s (s.length + 1) 0 0)
        | separator :: _ => do split (← text fuel separator) s
      let id ← tableOf array
      setTable id (parts.zipIdx.foldl (fun (t : Table) (part, i) =>
        t.insert (Text.ofNat (i + 1)) (.input part)) {})
      ofNat parts.length
    | "sub", pattern :: new :: rest | "gsub", pattern :: new :: rest => do
      let r ← regexOf fuel pattern
      let new ← text fuel new
      let target := rest.headD (.field (.num 0))
      let s ← text fuel target
      let (out, changes) := r.exchange s (fun f => putIn (f.text s) new) 1 (name == "gsub")
      if changes > 0 then store fuel target (.str out)
      ofNat changes
    | "match", [e, pattern] => do
      let s ← text fuel e
      let r ← regexOf fuel pattern
      let (start, size) := match r.search s with
        | some f => (f.start + 1, Float.ofNat (f.finish - f.start))
        | none => (0, -1)
      setVar "RSTART" (.num (Float.ofNat start))
      setVar "RLENGTH" (.num size)
      ofNat start
    | "sprintf", _ => do return .str (← formatted fuel "sprintf" args)
    | "tolower", [e] => do return .str (Text.asciiLower (← text fuel e))
    | "toupper", [e] => do return .str ((← text fuel e).map Char.toUpper)
    | "int", _ => numeric fun x => if x < 0 then x.ceil else x.floor
    | "sqrt", _ => numeric Float.sqrt
    | "exp", _ => numeric Float.exp
    | "log", _ => numeric Float.log
    | "sin", _ => numeric Float.sin
    | "cos", _ => numeric Float.cos
    | "atan2", [y, x] => do
      let y ← number fuel y
      return .num (Float.atan2 y (← number fuel x))
    | "rand", _ => do
      let s ← get
      let n := nextRandom s.random
      set { s with random := n }
      return .num (Float.ofNat n / 2147483648)
    | "srand", _ => do
      let s ← get
      let seed ← match args with
        | e :: _ => do pure (truncated (← number fuel e)).toNat
        | [] => pure 1
      set { s with seed := seed, random := seed }
      ofNat s.seed
    | "system", [e] => do
      let c ← text fuel e
      flush
      ofNat (← runCommand c none none)
    | "close", [e] => do
      let code ← close (← text fuel e)
      return .num (if code = 255 then -1 else Float.ofNat code)
    | "fflush", _ => do
      flush
      return .num 0
    | _, _ => return .unset

/-- A format with values put in. -/
def formatted : (fuel : Nat) → (who : String) → List Expr → Run Octets
  | 0, _, _ => return []
  | fuel + 1, who, args => do
    match args with
    | [] => return []
    | format :: rest => do
      let format ← text fuel format
      let values ← values fuel rest
      let shape ← textOf "CONVFMT"
      let (s, enough) := fill (·.toText shape) Value.toNumber (format.length + 1) format values
      if enough then return s
      else
        if who = "printf" then modify fun st => { st with pending := s :: st.pending }
        fault (("run time error: not enough arguments passed to " : Text) ++ who.toList ++ ("(\"" : Text) ++
          format ++ ("\")" : Text))

def values : (fuel : Nat) → List Expr → Run (List Value)
  | 0, _ => return []
  | _, [] => return []
  | fuel + 1, e :: rest => do
    let v ← eval fuel e
    return v :: (← values fuel rest)

/-- Writes a text to where it is to go. -/
def emit : (fuel : Nat) → Target → Octets → Run Unit
  | 0, _, _ => return
  | fuel + 1, target, s => do
    match target with
    | .output => modify fun st => { st with pending := s :: st.pending }
    | .file appends name => do write (← text fuel name) s false appends
    | .command c => do write (← text fuel c) s true false

def exec : (fuel : Nat) → Stmt → Run Unit
  | 0, _ => fault "function call nesting too deep"
  | fuel + 1, s => do
    match s with
    | .block body => execAll fuel body
    | .expr e => do
      let _ ← eval fuel e
    | .print items target => do
      let shape ← textOf "OFMT"
      let texts ← match items with
        | [] => do pure [(← get).record]
        | _ => do pure ((← values fuel items).map (·.toText shape))
      emit fuel target ((← textOf "OFS").intercalate texts ++ (← textOf "ORS"))
    | .printf items target => do emit fuel target (← formatted fuel "printf" items)
    | .choice test yes no => do
      if (← eval fuel test).isTrue then exec fuel yes
      else match no with
        | some s => exec fuel s
        | none => return
    | .loop first test step body => do
      match first with
      | some s => exec fuel s
      | none => pure ()
      rounds fuel test step body
    | .loopOnce body test => do
      if ← round fuel body then
        if (← eval fuel test).isTrue then rounds fuel (some test) none body
    | .each name array body => do
      let keys := (← table (← tableOf array)).keys
      eachKey fuel name body keys
    | .next => throw .next
    | .nextFile => throw .nextFile
    | .exit code => do
      match code with
      | none => throw (.exit none)
      | some e => do throw (.exit (some ((truncated (← number fuel e)) % 256).toNat))
    | .result value => do
      match value with
      | none => throw (.result .unset)
      | some e => do throw (.result (← eval fuel e))
    | .leave => throw .leave
    | .goOn => throw .goOn
    | .delete array index => do
      let id ← tableOf array
      match index with
      | none => setTable id {}
      | some index => do
        let key ← subscript fuel index
        setTable id ((← table id).erase key)

def execAll : (fuel : Nat) → List Stmt → Run Unit
  | 0, _ => return
  | _, [] => return
  | fuel + 1, s :: rest => do
    exec fuel s
    execAll fuel rest

/-- Carries out the body of a loop once; says whether the loop goes on. -/
def round : (fuel : Nat) → Stmt → Run Bool
  | 0, _ => return false
  | fuel + 1, body =>
    (do
      exec fuel body
      return true : Run Bool).tryCatch fun stop =>
        match stop with
        | .leave => return false
        | .goOn => return true
        | stop => throw stop

def rounds : (fuel : Nat) → Option Expr → Option Stmt → Stmt → Run Unit
  | 0, _, _, _ => return
  | fuel + 1, test, step, body => do
    let goes ← match test with
      | some e => do pure (← eval fuel e).isTrue
      | none => pure true
    if goes then
      if ← round fuel body then
        match step with
        | some s => exec fuel s
        | none => pure ()
        rounds fuel test step body

def eachKey : (fuel : Nat) → Octets → Stmt → List Octets → Run Unit
  | 0, _, _, _ => return
  | _, _, _, [] => return
  | fuel + 1, name, body, key :: rest => do
    store fuel (.var name) (.input key)
    if ← round fuel body then eachKey fuel name body rest

end

/-- How deep and how long a program may run. -/
def stepLimit : Nat := 1000000000

/-- Carries out the rules for a record; `active` says which ranges have begun. -/
def applyRules : List Rule → List Bool → Run (List Bool)
  | rule :: rules, active :: rest => do
    let test (e : Expr) : Run Bool := return (← eval stepLimit e).isTrue
    let (fits, active) ← match rule.pattern with
      | .always => pure (true, false)
      | .test e => do pure (← test e, false)
      | .range first last => do
        if active then pure (true, !(← test last))
        else if ← test first then pure (true, !(← test last))
        else pure (false, false)
    if fits then
      match rule.action with
      | some s => exec stepLimit s
      | none => do
        let line := (← get).record ++ (← textOf "ORS")
        modify fun s => { s with pending := line :: s.pending }
    return active :: (← applyRules rules rest)
  | _, _ => return []

/-- Goes through the records. A rule that is stopped keeps the ranges as they were. -/
def applyAll (rules : List Rule) : (fuel : Nat) → List Bool → Run Unit
  | 0, _ => return
  | fuel + 1, active => do
    match ← mainRecord with
    | none => return
    | some record => do
      setRecord record
      let active ← (applyRules rules active).tryCatch fun stop =>
        match stop with
        | .next => return active
        | .nextFile => do
          modify fun s => { s with main := none }
          return active
        | stop => throw stop
      applyAll rules fuel active

/-- Runs a program and answers with its exit code. -/
def Program.run (p : Program) : Run Nat := do
  let guarded (body : Run Unit) : Run (Option (Option Nat)) :=
    (do
      body
      return none : Run _).tryCatch fun stop =>
        match stop with
        | .exit code => return some code
        | .next | .nextFile | .leave | .goOn | .result _ => return none
        | .fault m => throw (.fault m)
  let first ← guarded (p.start.forM (exec stepLimit))
  let second ← match first with
    | some code => pure (some code)
    | none =>
      if p.rules.isEmpty && p.finish.isEmpty then pure none
      else guarded (applyAll p.rules stepLimit (p.rules.map fun _ => false))
  let third ← match first with
    | some _ => do
      -- The final actions are carried out even then, unless there are none.
      guarded (p.finish.forM (exec stepLimit))
    | none => guarded (p.finish.forM (exec stepLimit))
  let code := (third.bind id).or ((second.bind id).or (first.bind id))
  (← get).outputs.forM fun o => do
    let _ ← close o.name
  flush
  return code.getD 0

/-- The arguments: settings of variables, the text of the program and the operands. -/
def awk (launch : Launcher) : Task Nat := do
  let p ← read
  let table : OptTable := { OptTable.ofLetters "F:f:v:W:" [("version", 'V')] with ordered := true, code := 2 }
  let g ← given table
  let complain {α : Type} (message : Octets) : Task α := do
    Task.complain message
    Task.exit 2
  let sources ← g.options.filterMapM fun (c, value) => do
    if c = 'f' then
      match ← Task.contentOf value with
      | .ok s => return some s
      | .error e =>
        complain (("cannot open \"" : Text) ++ value ++ ("\" (" : Text) ++ e.brief ++ [')'])
    else return none
  let (text, operands) ← match sources, g.operands with
    | [], [] => do
      Task.writeTo 2 ("Usage: mawk [Options] [Program] [file ...]\n" : Text)
      Task.exit 2
    | [], text :: operands => pure (text, operands)
    | _, operands => pure (['\n'].intercalate sources, operands)
  match Program.ofText text with
  | .error wrong =>
    complain ((if wrong.isCharacter then [] else "line ".toList) ++ Text.ofNat wrong.line ++ (": " : Text) ++ wrong.message)
  | .ok program => do
    let setUp : Run Unit := do
      let initial : List (String × Value) :=
        [("FS", .str [' ']), ("OFS", .str [' ']), ("ORS", .str ['\n']), ("RS", .str ['\n']),
          ("NF", .num 0), ("NR", .num 0), ("FNR", .num 0), ("FILENAME", .str []),
          ("SUBSEP", .str ['\x1c']), ("RSTART", .num 0), ("RLENGTH", .num (-1)),
          ("CONVFMT", .str "%.6g".toList), ("OFMT", .str "%.6g".toList),
          ("ARGC", .num (Float.ofNat (operands.length + 1)))]
      initial.forM fun (name, v) => setVar name v
      let argv ← tableOf "ARGV"
      setTable argv (((p.name :: operands).zipIdx).foldl (fun (t : Table) (arg, i) =>
        t.insert (Text.ofNat i) (.input arg)) {})
      let environ ← tableOf "ENVIRON"
      setTable environ (p.env.foldl (fun (t : Table) entry =>
        match Text.splitOnce? '=' entry with
        | some (name, value) => t.insert name (.input value)
        | none => t) {})
      g.options.forM fun (c, value) => do
        if c = 'F' then
          setVar "FS" (.str (if value = ['t'] then ['t'] else unescaped value))
        else if c = 'v' then
          match setting? value with
          | some (name, value) => setGiven name value
          | none => pure ()
    let whole : Run Nat := do
      setUp
      program.run
    let start : State := { functions := program.functions, launch := launch, arguments := operands }
    match ← (whole.run).run start with
    | (.ok code, _) => return code
    | (.error (.fault message), s) => do
      Task.print s.pending.reverse.flatten
      match message with
      | '\x00' :: message => Task.complain message
      | _ => do
        let shown (name : String) : Octets := match s.globals[name.toList]? with
          | some (.value v) => v.toText "%.6g".toList
          | _ => []
        let full := if ("run time error: " : Text).isPrefixOf message then message
          else ("run time error: " : Text) ++ message
        Task.complain (full ++ ("\n\tFILENAME=\"" : Text) ++ shown "FILENAME" ++ ("\" FNR=" : Text) ++
          shown "FNR" ++ (" NR=" : Text) ++ shown "NR")
      return 2
    | (.error _, _) => return 2

end CompileFail.Utility.Awk
