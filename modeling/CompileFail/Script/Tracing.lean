import CompileFail.Script.Expansion

/-! Tracing: a shell may show each command, with all words expanded, before it carries it out. -/

namespace CompileFail.Script.Tracing

/-- A word so that the larger shell reads it back. -/
def shown (s : Text) : Text :=
  if s.isEmpty then ['\'', '\'']
  else if s.any fun c => c.toNat < 32 || c.toNat = 127 then requoted s
  else if s.any fun c => ("|&;<>()$`\\\"' \t\n*?[]#~=%!\x7b\x7d^" : String).toList.contains c &&
      !(("=%~#" : String).toList.contains c) then
    Expansion.quotedValue s
  else if s.head? = some '~' ∨ s.head? = some '#' then Expansion.quotedValue s
  else s

/-- A word where it needs no quotes. -/
def plain (s : Text) : Text := if s.isEmpty then ['\'', '\''] else s

/-- What stands in front of a traced line. -/
def mark (m : Means) : Exec Text := do
  let sh ← get
  let text := (sh.var? "PS4").getD []
  let text ←
    if text.any fun c => c == '$' || c == '`' then
      let r : Reader := { dialect := sh.dialect, rest := text }
      match (WordReader.word Grammar.nestedList .document).run r with
      | .ok (word, _) => do
        set { sh with options := sh.options.filter (· != ("xtrace" : Text)) }
        let s ← Expansion.textOf m .never word
        modify ({ · with options := sh.options, status := sh.status })
        pure s
      | .error _ => pure text
    else pure text
  return if sh.isBash then List.replicate sh.nesting (text.headD '+') ++ text else text

/-- Writes a line, if tracing is on, to where the errors went before redirections. -/
def line (m : Means) (target : Option Nat) (s : Text) : Exec Unit := do
  let sh ← get
  if sh.isOn "xtrace" then
    let lead ← mark m
    match target with
    | some stream => modify fun sh =>
      { sh with machine := sh.machine.write stream (lead ++ s ++ ['\n']) }
    | none => pure ()

/-- An assignment of a value. -/
def assignment (sh : Shell) (name value : Text) : Text :=
  name ++ '=' :: if sh.isBash && !value.isEmpty then shown value else value

/-- Shows a command with the assignments in front of it. -/
def command (m : Means) (target : Option Nat) (assigned : List Text) (args : List Text) :
    Exec Unit := do
  let sh ← get
  if sh.isOn "xtrace" then
    match sh.dialect with
    | .dash =>
      let words := assigned ++ args
      if !words.isEmpty then line m target ([' '].intercalate words)
    | .bash => do
      assigned.forM (line m target)
      if !args.isEmpty then line m target ([' '].intercalate (args.map shown))

end CompileFail.Script.Tracing
