import CompileFail.Compiler
import CompileFail.Diagnostic
import CompileFail.Session
import CompileFail.Tag

/-! The check of one tagged line. A copy of the file in which that line is opened is written beside
it, compiled and removed again, and the first diagnostic is held against what the tag expects. -/

namespace CompileFail

inductive Verdict where
  | pass
  | fail (lines : List Report.Line)
  | skip
deriving DecidableEq, Repr

/-- How a verdict on a line, or what kept it from being reached, is reported. -/
def Verdict.step (file : Path) (index : Nat) : Except Fault Verdict → Report.Step
  | .ok .pass => .pass
  | .ok .skip => .skip
  | .ok (.fail lines) => .failure file index lines
  | .error fault => .technical fault

/-- The name of the copy of a file for one of its lines: in front of the extension stand the name of the
tool and the number of the line. What is not UTF-8 in the name of the file is not kept. -/
def copyName (source : Path) (index : Nat) (toolName : Text) : Text :=
  let marked :=
    Octets.toText (source.stem.getD []) ++ ['.'] ++ toolName ++ ['-'] ++ Text.ofNat (index + 1)
  match source.extension with
  | some extension => marked ++ ['.'] ++ Octets.toText extension
  | none => marked

/-- The path of the copy of a file for one of its lines. -/
def copyPath (source : Path) (index : Nat) (toolName : Text) : Path :=
  source.withFileName (Octets.ofText (copyName source index toolName))

structure Verifier where
  compiler : Compiler
  configuration : Text
  toolName : Text

namespace Verifier

def writeCopy (copy : Path) (content : Text) : Act Unit := do
  Act.change fun tree =>
    match tree.write copy content with
    | .ok tree => (.ok (), tree)
    | .error e => (.error (.fileWrite copy e), tree)
  Act.emit (.wrote copy)

/-- Removes the copy. That there is none is no surprise; any other hindrance goes into the log. -/
def removeCopy (copy : Path) (s : Session) : Session :=
  match s.tree.remove copy with
  | .ok tree => { s with tree := tree }.add (.removed copy)
  | .error .notFound => s
  | .error e =>
    s.add (.logged ⟨.warn, .verify,
      ("Failed to remove " : Text) ++ copy.display ++ (": " : Text) ++ e.message⟩)

/-- Does something with a copy, which is removed whatever comes of it. -/
def withCopy {α : Type} (copy : Path) (content : Text) (body : Act α) : Act α := fun s =>
  let (result, s) := (do writeCopy copy content; body : Act α) s
  (result, removeCopy copy s)

def exitCodeText : Option Nat → Text
  | some code => ("Some(" : Text) ++ Text.ofNat code ++ [')']
  | none => "None"

/-- Compiles a file. -/
def compile (compiler : Compiler) (file : Path) : Act Compilation := do
  let content ← Act.inspect fun tree => (tree.readText file).toOption
  Act.emit (.compiled file content)
  let compilation ← Act.change (compiler file)
  Act.log .debug .compile
    (("Compiled " : Text) ++ file.display ++ (" (exit code " : Text) ++
      exitCodeText compilation.exitCode ++ [')'])
  return compilation

/-- Holds what the compiler said about the copy of a file against the expected message. -/
def judge (file copy : Path) (expected : Text) (compilation : Compilation) :
    Except Fault Verdict :=
  if compilation.success then .ok (.fail [⟨.error, "Compilation succeeded."⟩])
  else
    let line := (Diagnostic.firstLine? compilation.output copy.shownName).getD []
    match Diagnostic.ofLine? line with
    | none => .error (.unrecognizedDiagnostic file line)
    | some diagnostic =>
      if diagnostic.kind ≠ .error then
        .ok (.fail
          [⟨.error, ("The first diagnostic is a " : Text) ++ diagnostic.kind.text ++ ['.']⟩,
           ⟨.message, ("Expected error:    " : Text) ++ expected⟩,
           ⟨.message, ("Actual diagnostic: " : Text) ++ diagnostic.message⟩])
      else if !Text.contains expected diagnostic.message then
        .ok (.fail
          [⟨.error, "Expected error not found."⟩,
           ⟨.message, ("Expected error: " : Text) ++ expected⟩,
           ⟨.message, ("Actual error:   " : Text) ++ diagnostic.message⟩])
      else .ok .pass

/-- Checks one line of a file. -/
def verifyLine (v : Verifier) (file : Path) (lines : List Text) (index : Nat) : Act Verdict := do
  match Tag.scan (lines.getD index []) with
  | .untagged => return .skip
  | .malformed reason => return .fail [⟨.error, reason.message⟩]
  | .occurrence occurrence =>
    if occurrence.appliesTo v.configuration then
      let copy := copyPath file index v.toolName
      withCopy copy (Tag.activate lines index occurrence) do
        let compilation ← compile v.compiler copy
        Act.inspect? fun _ => judge file copy occurrence.expected compilation
    else
      Act.log .debug .verify
        (("Skipping " : Text) ++ file.display ++ ['('] ++ Text.ofNat (index + 1) ++
          ("): tag is for another configuration" : Text))
      return .skip

/-- Checks one line of a file and reports what came of it. -/
def settleLine (v : Verifier) (file : Path) (lines : List Text) (index : Nat) :
    StateM Session Unit := do
  modify (·.add (.reported (.announce file)))
  let result ← (v.verifyLine file lines index).run
  modify (·.add (.reported (Verdict.step file index result)))

end Verifier

end CompileFail
