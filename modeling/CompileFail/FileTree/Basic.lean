import CompileFail.OsError
import Std.Data.ExtTreeMap

/-! A file tree is a finite map from places to what stands there. A place is the list of names
that lead to it from the root, and places are ordered as these lists are, name by name; the root
itself is always a directory. The tree is seen by one process: it knows the directory from which
relative paths start, the time that a change leaves on a file, and which files are those of others. -/

namespace CompileFail

/-- What a file holds: text, or bytes that are not the UTF-8 form of any text. -/
inductive Content where
  | text (text : Text)
  | binary (bytes : Bytes)
deriving DecidableEq, Repr

namespace Content

def ofBytes (bytes : Bytes) : Content :=
  match bytes.decode? with
  | some t => .text t
  | none => .binary bytes

def toBytes : Content → Bytes
  | text t => Text.encode t
  | binary bytes => bytes

def size : Content → Nat
  | text t => Text.byteSize t
  | binary bytes => bytes.length

end Content

inductive Entry where
  | dir
  | file (content : Content) (executable : Bool) (modified : Nat)
  /-- A symbolic link with its target as stored. -/
  | link (target : Octets)
  /-- A device that is always empty and takes everything that is written to it. -/
  | device
deriving DecidableEq, Repr

def Entry.isDir : Entry → Bool
  | .dir => true
  | _ => false

def Entry.isFile : Entry → Bool
  | .file .. => true
  | _ => false

abbrev Place := List Octets

def Place.path (place : Place) : Path := ⟨'/' :: ['/'].intercalate place⟩

structure FileTree where
  entries : Std.ExtTreeMap Place Entry
  workDir : Place
  clock : Nat
  /-- The files at these places belong to others, who alone may set their times. -/
  foreign : Place → Bool := fun _ => false

namespace FileTree

/-- The tree that holds nothing but the root. -/
def empty : FileTree := { entries := ∅, workDir := [], clock := 0 }

instance : Inhabited FileTree := ⟨empty⟩

def entry? (tree : FileTree) (place : Place) : Option Entry :=
  if place.isEmpty then some .dir else tree.entries[place]?

def insert (tree : FileTree) (place : Place) (entry : Entry) : FileTree :=
  { tree with entries := tree.entries.insert place entry }

def erase (tree : FileTree) (place : Place) : FileTree :=
  { tree with entries := tree.entries.erase place }

/-- The same tree seen from another directory. -/
def atDir (tree : FileTree) (place : Place) : FileTree := { tree with workDir := place }

/-- All places but the root, in order, with what stands there. -/
def toList (tree : FileTree) : List (Place × Entry) := tree.entries.toList

/-- What stands directly in a directory, in the order of the names. -/
def children (tree : FileTree) (place : Place) : List (Octets × Entry) :=
  tree.toList.filterMap fun (other, entry) =>
    match other.getLast? with
    | some name => if other.dropLast = place then some (name, entry) else none
    | none => none

/-- The largest number of names in a place of the tree. -/
def height (tree : FileTree) : Nat :=
  (tree.toList.map fun (place, _) => place.length).foldl max 0

end FileTree

end CompileFail
