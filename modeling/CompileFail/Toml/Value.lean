import CompileFail.Text.Basic

/-! The values of a TOML document and the rules by which tables grow. A table is defined once: by
its own header, by dotted keys, or in braces, and what came to be in one of these ways cannot be
extended in another. -/

namespace CompileFail.Toml

/-- How a table came to be. -/
inductive Origin where
  | header
  /-- So far only as a part of a longer header. -/
  | implied
  | dotted
  | inline
deriving DecidableEq, Repr

inductive Value where
  | string (text : Text)
  | integer (value : Int)
  | float (text : Text)
  | boolean (value : Bool)
  /-- A date, a time, or both. -/
  | moment (text : Text)
  | array (items : List Value)
  | table (origin : Origin) (members : List (Text × Value))
  /-- Tables that share one header in double brackets. -/
  | rows (rows : List (List (Text × Value)))
deriving Repr, Inhabited

abbrev Members := List (Text × Value)

namespace Members

def get? (members : Members) (key : Text) : Option Value := members.lookup key

/-- Puts a value in the place of the one that the key has. -/
def set (members : Members) (key : Text) (value : Value) : Members :=
  members.map fun (k, v) => if k = key then (k, value) else (k, v)

/-- Adds a member under a new key. -/
def add? (members : Members) (key : Text) (value : Value) : Option Members :=
  if (members.get? key).isSome then none else some (members ++ [(key, value)])

/-- Changes the table at the end of a path of keys. Tables that are missing on the way come to be
as `made` says; of rows the last one is meant. Dotted keys do not lead through a table that has a
header of its own, and nothing leads into a table in braces or into any other value. -/
def change? (made : Origin) (change : Origin → Members → Option Members) :
    List Text → Origin → Members → Option Members
  | [], origin, members => change origin members
  | key :: path, _, members =>
    match members.get? key with
    | none => do
      let inner ← change? made change path made []
      some (members ++ [(key, .table made inner)])
    | some (.table origin inner) =>
      if origin = .inline ∨ made = .dotted ∧ origin = .header then none
      else do
        let inner ← change? made change path origin inner
        some (members.set key (.table origin inner))
    | some (.rows rows) =>
      match rows.getLast? with
      | none => none
      | some row => do
        let row ← change? made change path .header row
        some (members.set key (.rows (rows.dropLast ++ [row])))
    | some _ => none

/-- Defines a value under a dotted key in a table of the given origin. -/
def define? (keys : List Text) (value : Value) (origin : Origin) (members : Members) :
    Option Members :=
  match keys.getLast? with
  | none => none
  | some key =>
    change? .dotted
      (fun last inner =>
        if (last == .dotted) == keys.dropLast.isEmpty then none else inner.add? key value)
      keys.dropLast origin members

/-- Opens the table of a header. It must be new or known only from longer headers. -/
def openTable? (keys : List Text) (members : Members) : Option Members :=
  match keys.getLast? with
  | none => none
  | some key =>
    change? .implied
      (fun _ outer =>
        match outer.get? key with
        | none => outer.add? key (.table .header [])
        | some (.table .implied inner) => some (outer.set key (.table .header inner))
        | some _ => none)
      keys.dropLast .header members

/-- Opens a new row under a header in double brackets. -/
def openRow? (keys : List Text) (members : Members) : Option Members :=
  match keys.getLast? with
  | none => none
  | some key =>
    change? .implied
      (fun _ outer =>
        match outer.get? key with
        | none => outer.add? key (.rows [[]])
        | some (.rows rows) => some (outer.set key (.rows (rows ++ [[]])))
        | some _ => none)
      keys.dropLast .header members

/-- Defines a value under a dotted key in the table that was opened last. -/
def defineIn? (header keys : List Text) (value : Value) (members : Members) : Option Members :=
  change? .implied (define? keys value) header .header members

end Members

end CompileFail.Toml
