import CompileFail.Script.Assigning
import CompileFail.Script.Braces
import CompileFail.Script.Field
import CompileFail.Script.FileNames
import CompileFail.Script.Format
import CompileFail.Script.Source

/-! What words stand for: the values of variables, the output of commands and the results of
calculations are put into them. -/

namespace CompileFail.Script

/-- Where in a word a tilde may stand for a directory. -/
inductive Tilde where
  | never
  | atStart
  /-- Also behind colons. -/
  | inValue
  /-- Behind an equals sign and then behind colons. -/
  | inAssignment
deriving DecidableEq, Repr

namespace Expansion

/-- The directory that a tilde with a user's name stands for. -/
def homeOf? (sh : Shell) (user : Text) : Option Text :=
  if user.isEmpty then
    match sh.var? "HOME", sh.dialect with
    | none, .bash => some "/root"
    | home, _ => home
  else if user = ("root" : Text) then some "/root"
  else if user = ['+'] ∧ sh.isBash then sh.var? "PWD"
  else if user = ['-'] ∧ sh.isBash then sh.var? "OLDPWD"
  else none

/-- Plain text with directories in place of its tildes. `start` says whether one may stand at the
front, `colons` whether one may stand behind a colon and `last` whether nothing follows the text. -/
def tildePieces (home? : Text → Option Text) (colons last : Bool) :
    (fuel : Nat) → (start : Bool) → Text → Word
  | 0, _, s => [.chars s false]
  | _, _, [] => []
  | fuel + 1, true, '~' :: s =>
    let user := s.takeWhile fun c => c != '/' && !(colons && c == ':')
    match if user.length < s.length || last then home? user else none with
    | some home => .chars home true :: tildePieces home? colons last fuel false (s.drop user.length)
    | none => Word.cons '~' false (tildePieces home? colons last fuel false s)
  | fuel + 1, _, c :: s =>
    Word.cons c false (tildePieces home? colons last fuel (colons && c == ':') s)

/-- A word with directories in place of its tildes. -/
def tildeWord (home? : Text → Option Text) (colons : Bool) : (start : Bool) → Word → Word
  | _, [] => []
  | start, .chars text false :: rest =>
    tildePieces home? colons rest.isEmpty (text.length + 1) start text ++
      tildeWord home? colons (colons && text.getLast? == some ':') rest
  | _, piece :: rest => piece :: tildeWord home? colons false rest

/-- A word with directories in place of the tildes where they count. -/
def withTildes (sh : Shell) (tilde : Tilde) (w : Word) : Word :=
  match tilde, w with
  | .never, _ => w
  | .atStart, _ => tildeWord (homeOf? sh) false true w
  | .inValue, _ => tildeWord (homeOf? sh) true true w
  | .inAssignment, .chars text false :: rest =>
    match Text.splitOnce? '=' text with
    | some (name, value) =>
      .chars (name ++ ['=']) false ::
        tildeWord (homeOf? sh) true true
          (if value.isEmpty then rest else .chars value false :: rest)
    | none => w
  | .inAssignment, _ => w

/-- What a variable and its index lead to. -/
inductive Reference where
  | one (value : Option Text)
  /-- All elements; `joined` says that they are one text if they are quoted. -/
  | all (values : List Text) (joined : Bool)

/-- Values put together as a word wants them. -/
def marksOf (sh : Shell) (splits quoted : Bool) : Reference → List Mark
  | .one value => Mark.ofValue quoted (value.getD [])
  | .all values joined =>
    if quoted && joined || !splits then
      let glue := if joined || !sh.isBash then sh.separators.take 1 else [' ']
      Mark.ofValue quoted (glue.intercalate values)
    else Mark.ofValues quoted values

def Reference.map (f : Text → Text) : Reference → Reference
  | .one value => .one (value.map f)
  | .all values joined => .all (values.map f) joined

/-- Removes a part of a value; of several values the plain shell looks only at the one at the end
where the part is. -/
def Reference.trim (dialect : Dialect) (kind : Trim) (f : Text → Text) : Reference → Reference
  | .one value => .one (value.map f)
  | .all values joined =>
    let changed := match dialect, kind with
      | .bash, _ => values.map f
      | .dash, .shortestPrefix | .dash, .longestPrefix => values.modifyHead f
      | .dash, _ => (values.reverse.modifyHead f).reverse
    .all changed joined

def style (sh : Shell) : PatternStyle :=
  { caret := sh.isBash, groups := sh.isBash && sh.isOn "extglob" }

/-- A word's text for the place where its use cannot be understood. -/
def badSubstitution (shown : Text) : Exec (List Mark) := do
  if (← get).isBash then
    Exec.giveUp (("$\x7b" : Text) ++ shown ++ (": bad substitution" : Text))
  else Exec.giveUp "Bad substitution"

/-- Complains about a variable without a value, which ends the shell. -/
def unset {α : Type} (name : Text) : Exec α := do
  if (← get).isBash then
    Exec.complain (name ++ (": unbound variable" : Text))
    throw (.exit 1)
  else Exec.giveUp (name ++ (": parameter not set" : Text))

/-- The letters of a text that fit a pattern are made capital or small. -/
def recased (fits : Text → Bool) (upper every : Bool) (s : Text) : Text :=
  let change (c : Char) : Char :=
    if fits [c] then if upper then c.toUpper else c.toLower else c
  if every then s.map change else s.modifyHead change

/-- A text in single quotes that gives it back. -/
def quotedValue (s : Text) : Text :=
  if s.any fun c => c.toNat < 32 || c.toNat = 127 then requoted s
  else '\'' :: s.flatMap (fun c => if c = '\'' then ("'\\''" : Text) else [c]) ++ ['\'']

/-- The value in another form. -/
def transformed (operator : Char) (s : Text) : Text :=
  match operator with
  | 'Q' => quotedValue s
  | 'U' => s.map Char.toUpper
  | 'u' => s.modifyHead Char.toUpper
  | 'L' => s.map Char.toLower
  | 'E' => (Escape.richFormat.replace s).1
  | _ => s

/-- Part of a list: from a start on, which counts from the end if it is negative, and as many as are
asked for or up to so many before the end. -/
def sliced {α : Type} (start : Int) (size : Option Int) (l : List α) : Option (List α) :=
  let length : Int := l.length
  let first := if start < 0 then length + start else start
  if first < 0 ∨ first > length then some []
  else
    let rest := l.drop first.toNat
    match size with
    | none => some rest
    | some n =>
      if n < 0 then if length + n < first then none else some (rest.take (length + n - first).toNat)
      else some (rest.take n.toNat)

mutual

/-- The marks of a piece of a word. Where values are not split, several of them become one. -/
def piece (m : Means) : (fuel : Nat) → (splits : Bool) → Piece → Exec (List Mark)
  | 0, _, _ => throw (.killed 11)
  | _ + 1, _, .chars s quoted => return Mark.ofText quoted s
  | fuel + 1, splits, .variable name index use quoted =>
    used m fuel splits name index use quoted
  | fuel + 1, _, .substitution body quoted => do
    let sh ← get
    let (s, status) ← match body, sh.dialect with
      | .simple _ [] [] [.file 0 .read w], .bash => do
        let name ← text m fuel .atStart w
        match sh.tree.read (Octets.path name) with
        | .ok content => pure (Octets.ofBytes content.toBytes, 0)
        | .error e => do
          Exec.complain (name ++ (": " : Text) ++ e.brief)
          pure ([], 1)
      | _, .dash => Source.capture m (m.run body)
      | _, .bash => Source.capture m do
        modify fun sh => { sh.turn "errexit" false with nesting := sh.nesting + 1 }
        m.run body
    modify ({ · with status := status, substituted := true })
    let s := s.filter (· != '\x00')
    return Mark.ofValue quoted (s.reverse.dropWhile (· == '\n')).reverse
  | fuel + 1, _, .arithmetic expression quoted => do
    let s ← text m fuel .never expression
    return Mark.ofValue quoted (Arithmetic.toText (← Exec.calculate [] s))
  | fuel + 1, _, .elements words => do
    let values ← words.mapM fun w => fields m fuel .atStart w
    return Mark.ofValues true values.flatten
  | _ + 1, _, .process body reads => do
    let sh ← get
    let (content, _) ← if reads then Source.capture m (m.run body) else pure ([], 0)
    let id := (← get).machine.fresh
    let name := Text.ofNat (id + 63)
    let place : Place := ["dev".toList, "fd".toList, name]
    modify fun sh =>
      let machine := { sh.machine with fresh := id + 1 }
      let machine := { machine with
        tree := machine.tree.insert place (.file (.ofBytes (Octets.toBytes content)) false 0) }
      { sh with machine := machine }
    if !reads then
      let work (machine : Machine) : Nat × Machine :=
        let (stream, machine) := machine.addPipe (machine.fileAt place)
        let inner := { sh with machine := machine, descriptors := sh.descriptors.set 0 stream }
        let (result, after) := Source.inSubshell m (m.run body) inner
        (match result with
          | .ok status => status
          | .error _ => 0, after.machine)
      modify fun sh => { sh with jobs := sh.jobs ++ [⟨id, work⟩] }
    return Mark.ofText true place.path.text

/-- The marks of a word. -/
def marks (m : Means) : (fuel : Nat) → (splits : Bool) → Tilde → Word → Exec (List Mark)
  | 0, _, _, _ => throw (.killed 11)
  | fuel + 1, splits, tilde, word => do
    match word with
    | [.chars s quoted] =>
      if quoted || tilde == Tilde.never || !s.any (· == '~') then return Mark.ofText quoted s
      else manyMarks m fuel splits (withTildes (← get) tilde word)
    | [piece'] => piece m fuel splits piece'
    | _ => manyMarks m fuel splits (withTildes (← get) tilde word)

def manyMarks (m : Means) : (fuel : Nat) → (splits : Bool) → Word → Exec (List Mark)
  | 0, _, _ => throw (.killed 11)
  | fuel + 1, splits, word => do
    let found ← word.mapM (piece m fuel splits)
    return found.flatten

/-- The text of a word that stays one field. -/
def text (m : Means) : (fuel : Nat) → Tilde → Word → Exec Text
  | 0, _, _ => throw (.killed 11)
  | fuel + 1, tilde, word => do
    return (Mark.glyphs (← marks m fuel false tilde word)).map (·.char)

/-- A word as a pattern. -/
def pattern (m : Means) : (fuel : Nat) → Word → Exec Pattern
  | 0, _ => throw (.killed 11)
  | fuel + 1, word => do
    return Mark.glyphs (← marks m fuel false .atStart word)

/-- The fields of a word. -/
def fields (m : Means) : (fuel : Nat) → Tilde → Word → Exec (List Text)
  | 0, _, _ => throw (.killed 11)
  | fuel + 1, tilde, word => do
    match word with
    | [.chars s true] => return [s]
    | _ =>
      let sh ← get
      let words := if sh.isBash then Braces.expand word else [word]
      let found ← words.mapM fun word => do
        let marks ← marks m fuel true tilde word
        let sh ← get
        let split := Mark.fields sh.separators marks
        if sh.isOn "noglob" then return split.map Pattern.text
        else
          let search : Pattern.Search :=
            { tree := sh.tree, style := style sh, dotted := sh.isOn "dotglob"
              selves := !sh.isBash }
          return split.flatMap fun p =>
            (Pattern.fileNames search p).getD (if sh.isOn "nullglob" then [] else [p.text])
      return found.flatten

/-- The key of an element of an array. -/
def key (m : Means) : (fuel : Nat) → (name : Text) → Word → Exec Text
  | 0, _, _ => throw (.killed 11)
  | fuel + 1, name, index => do
    let s ← text m fuel .never index
    match (← get).vars.value? name with
    | some (.keyed _) => return s
    | _ => do
      let n ← Exec.calculate [] s
      return Text.ofNat (← Exec.indexOf name n)

/-- What a variable and its index lead to. -/
def refer (m : Means) : (fuel : Nat) → (name : Text) → Option Word → Exec Reference
  | 0, _, _ => throw (.killed 11)
  | fuel + 1, name, index => do
    let sh ← get
    match name, index with
    | ['@'], none => return .all sh.args false
    | ['*'], none => return .all sh.args true
    | _, some [.chars ['@'] _] => return .all (values sh name) false
    | _, some [.chars ['*'] _] => return .all (values sh name) true
    | _, some index => do
      let k ← key m fuel name index
      let sh ← get
      return .one (match sh.vars.value? name with
        | some (.keyed elements) => (elements.find? (·.1 == k)).map (·.2)
        | _ => ((sh.elements name).find? fun (i, _) => Text.ofNat i == k).map (·.2))
    | _, none => return .one (sh.value? name)
where
  /-- The elements in their order. -/
  values (sh : Shell) (name : Text) : List Text :=
    match sh.vars.value? name with
    | some value => value.toList
    | none => (sh.elements name).map (·.2)

/-- The marks of a use of a variable. -/
def used (m : Means) : (fuel : Nat) → (splits : Bool) → (name : Text) → Option Word → Use →
    (quoted : Bool) → Exec (List Mark)
  | 0, _, _, _, _, _ => throw (.killed 11)
  | fuel + 1, splits, name, index, use, quoted => do
    let sh ← get
    let ref ← match use with
      | .invalid _ => pure (Reference.one none)
      | _ => refer m fuel name index
    let needed : Exec Unit := do
      match ref with
      | .one none => if sh.isOn "nounset" then unset (shown name index)
      | _ => pure ()
    match use with
    | .invalid shown => badSubstitution shown
    | .plain => do
      needed
      return marksOf sh splits quoted ref
    | .length => do
      needed
      let n := match ref with
        | .one value => (value.getD []).length
        | .all values joined =>
          if sh.isBash then values.length
          else ((marksOf sh false joined ref).filter fun
            | .char .. => true
            | _ => false).length
      return Mark.ofValue quoted (Text.ofNat n)
    | .trim kind word => do
      needed
      let p ← pattern m fuel word
      return marksOf sh splits quoted (ref.trim sh.dialect kind (Pattern.trim (style sh) kind p))
    | .exchange kind word replacement => do
      needed
      let p ← pattern m fuel word
      let new ← text m fuel .atStart replacement
      return marksOf sh splits quoted (ref.map (Pattern.exchange (style sh) kind p new))
    | .recase upper every word => do
      needed
      let p ← pattern m fuel word
      let fits (s : Text) : Bool := p.isEmpty || Pattern.fits (style sh) p s
      return marksOf sh splits quoted (ref.map (recased fits upper every))
    | .transform operator => do
      needed
      return marksOf sh splits quoted (ref.map (transformed operator))
    | .slice start size => do
      needed
      let first ← Exec.calculate [] (← text m fuel .never start)
      let count ← match size with
        | some size => do pure (some (← Exec.calculate [] (← text m fuel .never size)))
        | none => pure none
      let failed : Exec (List Mark) := do
        let shown := match size with
          | some size => (Word.text? size).getD []
          | none => []
        Exec.giveUp (shown ++ (": substring expression < 0" : Text))
      match ref with
      | .one value =>
        match sliced first count (value.getD []) with
        | some s => return Mark.ofValue quoted s
        | none => failed
      | .all values joined =>
        let l := if index.isNone then sh.name :: values else values
        match sliced first count l with
        | some l => return marksOf sh splits quoted (.all l joined)
        | none => failed
    | .indirect use => do
      match index, use, ref with
      | _, _, .one value =>
        let target := value.getD []
        let name' := target.takeWhile (· != '[')
        let inner := (target.drop (name'.length + 1)).dropLast
        if name'.isEmpty then
          if sh.isOn "nounset" then unset (shown name index)
          else if value.isNone then
            Exec.giveUp (shown name index ++ (": invalid indirect expansion" : Text))
          else Exec.giveUp (target ++ (": invalid variable name" : Text))
        else
          let index' := if name'.length = target.length then none else some [Piece.chars inner false]
          used m fuel splits name' index' use quoted
      | _, _, .all .. => badSubstitution name
    | .keys => do
      match index with
      | some [.chars mark _] =>
        let keys := match sh.vars.value? name with
          | some (.keyed elements) => elements.map (·.1)
          | _ => (sh.elements name).map fun (i, _) => Text.ofNat i
        return marksOf sh splits quoted (.all keys (mark == ['*']))
      | _ =>
        let names := (sh.vars.toList.filter fun (other, var) =>
          name.isPrefixOf other && var.value.isSome).map (·.1)
        return marksOf sh splits quoted (.all names false)
    | .fallback kind colon word =>
      let there : Bool := match ref with
        | .one value => value.any fun s => !(colon && s.isEmpty)
        | .all values _ => !values.isEmpty && !(colon && values.all (·.isEmpty))
      let standIn : Exec (List Mark) := do
        let found ← marks m fuel splits .atStart word
        return (if quoted && word.isEmpty then [.field] else []) ++ found.map Mark.loosen
      match kind with
      | .useWord => if there then return marksOf sh splits quoted ref else standIn
      | .replace => if there then standIn else return if quoted then [.field] else []
      | .assignWord =>
        if there then return marksOf sh splits quoted ref
        else
          let s ← text m fuel .atStart word
          if !isName name then
            if sh.isBash then
              Exec.giveUp (('$' :: name) ++ (": cannot assign in this way" : Text))
            else Exec.giveUp (name ++ (": bad variable name" : Text))
          else match index with
            | some index => do
              let k ← key m fuel name index
              Exec.assignElement name k s false
            | none => Exec.assign name s
          return Mark.ofValue quoted s
      | .complain =>
        if there then return marksOf sh splits quoted ref
        else
          let s ← text m fuel .atStart word
          let message : Text :=
            if !word.isEmpty then s
            else if !colon then "parameter not set"
            else if sh.isBash then "parameter null or not set"
            else "parameter not set or null"
          let whole := shown name index ++ (": " : Text) ++ message
          if sh.isBash then
            Exec.complain whole
            throw (.exit 1)
          else Exec.giveUp whole
where
  /-- The variable as messages name it. -/
  shown (name : Text) : Option Word → Text
    | none => name
    | some index => name ++ ['['] ++ (Word.text? index).getD [] ++ [']']

end

/-- How deep words may nest. -/
def depthLimit : Nat := 4000

/-- The text of a word that stays one field. -/
def textOf (m : Means) (tilde : Tilde) (w : Word) : Exec Text := text m depthLimit tilde w

def patternOf (m : Means) (w : Word) : Exec Pattern := pattern m depthLimit w

/-- The fields of words. -/
def fieldsOf (m : Means) (tilde : Tilde) (words : List Word) : Exec (List Text) := do
  let found ← words.mapM (fields m depthLimit tilde)
  return found.flatten

end Expansion

end CompileFail.Script
