import CompileFail.FileTree.Access
import CompileFail.Text.Octets

/-! A machine is what programs run on: a file tree and streams of bytes. Programs that run at the
same time share the streams; what one of them reads or writes, the others find read or written. -/

namespace CompileFail

/-- Where bytes come from or go to. -/
inductive Stream where
  /-- Bytes that wait to be read, in front of those that were written since, the last ones first. -/
  | pipe (unread : Octets) (written : List Octets)
  /-- A file at a position. If `appends` is set, all that is written goes to its end. -/
  | file (place : Place) (position : Nat) (appends : Bool)
  /-- It has nothing to read and drops what is written. -/
  | device

structure Machine where
  tree : FileTree
  streams : Std.ExtTreeMap Nat Stream := ∅
  /-- The number of the next stream or process. -/
  fresh : Nat := 0

namespace Machine

instance : Inhabited Machine := ⟨{ tree := .empty }⟩

def addStream (m : Machine) (stream : Stream) : Nat × Machine :=
  (m.fresh, { m with streams := m.streams.insert m.fresh stream, fresh := m.fresh + 1 })

/-- A stream that holds some bytes. -/
def addPipe (m : Machine) (content : Octets) : Nat × Machine := m.addStream (.pipe content [])

def dropStream (m : Machine) (id : Nat) : Machine := { m with streams := m.streams.erase id }

def setStream (m : Machine) (id : Nat) (stream : Stream) : Machine :=
  { m with streams := m.streams.insert id stream }

/-- The bytes of the file at a place. -/
def fileAt (m : Machine) (place : Place) : Octets :=
  match m.tree.entry? place with
  | some (.file content _ _) => .ofBytes content.toBytes
  | _ => []

/-- Puts bytes into the file at a place, if there is one. -/
def setFileAt (m : Machine) (place : Place) (bytes : Octets) : Machine :=
  match m.tree.entry? place with
  | some (.file _ executable _) =>
    let content := Content.ofBytes bytes.toBytes
    { m with tree := m.tree.insert place (.file content executable m.tree.clock) }
  | _ => m

/-- Bytes with others written over them from a position on; what lies between is filled up. -/
def splice (old : Octets) (position : Nat) (new : Octets) : Octets :=
  old.take position ++ List.replicate (position - old.length) '\x00' ++ new ++
    old.drop (position + new.length)

def write (m : Machine) (id : Nat) (s : Octets) : Machine :=
  if s.isEmpty then m
  else match m.streams[id]? with
    | some (.pipe unread written) => m.setStream id (.pipe unread (s :: written))
    | some (.file place position appends) =>
      let old := m.fileAt place
      let position := if appends then old.length else position
      (m.setFileAt place (splice old position s)).setStream id
        (.file place (position + s.length) appends)
    | _ => m

/-- The bytes that are still to be read from a stream. -/
def unread (m : Machine) (id : Nat) : Octets :=
  match m.streams[id]? with
  | some (.pipe unread written) => unread ++ written.reverse.flatten
  | some (.file place position _) => (m.fileAt place).drop position
  | _ => []

/-- Leaves so many bytes to be read from a stream. -/
def leaveUnread (m : Machine) (id : Nat) (rest : Octets) : Machine :=
  match m.streams[id]? with
  | some (.pipe ..) => m.setStream id (.pipe rest [])
  | some (.file place _ appends) =>
    m.setStream id (.file place ((m.fileAt place).length - rest.length) appends)
  | _ => m

/-- How a file is opened. -/
inductive Opening where
  | reading
  /-- The file is made if need be, and keeps what it holds. -/
  | updating
  /-- The file is made or emptied. -/
  | writing
  /-- The file is made if need be, and all is written to its end. -/
  | appending
deriving DecidableEq, Repr

/-- Opens the file at a path. -/
def openFile (m : Machine) (p : Path) (opening : Opening) : Except OsError (Nat × Machine) := do
  if opening = .reading then
    match ← m.tree.find p true with
    | (place, .file ..) => .ok (m.addStream (.file place 0 false))
    | _ => .ok (m.addStream .device)
  else
    let kept := if opening = .writing then .text [] else (m.tree.read p).toOption.getD (.text [])
    let tree ← m.tree.store p kept
    match ← tree.find p true with
    | (place, .file ..) =>
      .ok ({ m with tree := tree }.addStream (.file place 0 (opening == Opening.appending)))
    | _ => .ok ({ m with tree := tree }.addStream .device)

end Machine

end CompileFail
