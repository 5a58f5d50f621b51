import CompileFail.FileTree.Access
import CompileFail.Settings
import CompileFail.Toml.Document

/-! Settings from a TOML file. Each group of settings is a table, in which names that are missing
keep their defaults and unknown names do not matter; it may also be given as an array of its
settings in order. -/

namespace CompileFail.Settings

open Toml

/-- A setting that is a text, or its default. -/
def text? (value? : Option Value) (default : Text) : Option Text :=
  match value? with
  | none => some default
  | some (.string text) => some text
  | some _ => none

/-- A setting that is a path, or its default. -/
def path? (value? : Option Value) (default : Path) : Option Path :=
  match value? with
  | none => some default
  | some (.string text) => some (Path.ofText text)
  | some _ => none

/-- The values of a group under the given names. -/
def fields? (names : List Text) (value? : Option Value) : Option (List (Option Value)) :=
  match value? with
  | none => some (names.map fun _ => none)
  | some (.table _ members) => some (names.map (Members.get? members))
  | some (.array items) => some ((List.range names.length).map fun i => items[i]?)
  | some (.moment _) => some (names.map fun _ => none)
  | some _ => none

def readToolchain? (value? : Option Value) : Option Toolchain := do
  let default : Toolchain := {}
  match ← fields? ["msbuild", "vcvars", "platform"] value? with
  | [msbuild, vcvars, platform] =>
    some
      { msbuild := ← path? msbuild default.msbuild
        vcvars := ← path? vcvars default.vcvars
        platform := ← text? platform default.platform }
  | _ => none

def readCheck? (value? : Option Value) : Option Check := do
  let default : Check := {}
  match ← fields? ["source_extension", "tool_name"] value? with
  | [sourceExtension, toolName] =>
    some
      { sourceExtension := ← text? sourceExtension default.sourceExtension
        toolName := ← text? toolName default.toolName }
  | _ => none

/-- The settings that a document holds. -/
def ofText? (s : Text) : Option Settings := do
  let root ← Toml.parse? s
  some
    { toolchain := ← readToolchain? (Members.get? root "toolchain")
      check := ← readCheck? (Members.get? root "check") }

/-- The settings in a file. -/
def load (tree : FileTree) (p : Path) : Except Fault Settings :=
  match tree.readText p with
  | .error e => .error (.fileRead p e)
  | .ok s =>
    match ofText? s with
    | some settings => .ok settings
    | none => .error (.malformedSettings p)

end CompileFail.Settings
