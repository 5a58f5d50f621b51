import CompileFail.FileTree.Basic

/-! How a path finds its place. Names are followed one by one from the root or from the working
directory; a link is followed wherever it is not the last name, and there if the caller wants it.
A final separator asks for a directory. It counts as one more name, which is empty and stays where
it is as a dot does; but nothing is made at a path that ends so. -/

namespace CompileFail.FileTree

/-- The names that a path asks for, fillers left out but dots and a final separator kept. -/
def steps (text : Octets) : List Octets :=
  let pieces := (Text.splitOn '/' text).filter (!·.isEmpty)
  if text.getLast? = some '/' then pieces ++ [[]] else pieces

/-- What the last name of a path is looked up for. -/
inductive Purpose where
  /-- For what stands there, be it a link. -/
  | itself
  /-- For what a link there leads to. -/
  | target
  /-- For a file that is made if there is none. -/
  | creation
deriving DecidableEq, Repr

def Purpose.followsLast : Purpose → Bool
  | itself => false
  | target | creation => true

/-- The longest name that a directory can hold, in bytes. -/
def nameLimit : Nat := 255

/-- How far names lead without following a link that has to be followed. -/
inductive Arrival where
  /-- All names are used up; something may or may not stand at the place. -/
  | at (place : Place)
  | link (dir : Place) (target : Octets) (rest : List Octets)
  | failed (error : OsError)

/-- Follows names downwards from the directory `here`. -/
def descend (tree : FileTree) (purpose : Purpose) (here : Place) : List Octets → Arrival
  | [] => .at here
  | name :: rest =>
    if purpose = .creation ∧ rest = [[]] then .failed .isADirectory
    else if name = [] ∨ name = ['.'] then descend tree purpose here rest
    else if name = ['.', '.'] then descend tree purpose here.dropLast rest
    else if name.length > nameLimit then .failed .nameTooLong
    else match tree.entry? (here ++ [name]) with
      | none => if rest.isEmpty then .at (here ++ [name]) else .failed .notFound
      | some .dir => descend tree purpose (here ++ [name]) rest
      | some (.file ..) | some .device =>
        if rest.isEmpty then .at (here ++ [name]) else .failed .notADirectory
      | some (.link target) =>
        if rest.isEmpty && !purpose.followsLast then .at (here ++ [name])
        else .link here target rest

/-- How many links one path may lead through. -/
def linkLimit : Nat := 40

def startOf (tree : FileTree) (text : Octets) : Place :=
  if text.head? = some '/' then [] else tree.workDir

/-- The place that a path denotes, reached through at most `links` links. -/
def follow (tree : FileTree) (purpose : Purpose) :
    (links : Nat) → (here : Place) → List Octets → Except OsError Place
  | links, here, names =>
    match tree.descend purpose here names with
    | .at place => .ok place
    | .failed error => .error error
    | .link dir target rest =>
      match links with
      | 0 => .error .tooManyLinks
      | links + 1 =>
        if target.isEmpty then .error .notFound
        else tree.follow purpose links
          (if target.head? = some '/' then [] else dir) (steps target ++ rest)

/-- The longest path that the system takes, in bytes. -/
def pathLimit : Nat := 4095

/-- The place that a path denotes, whether or not something stands there. -/
def locateFor (tree : FileTree) (purpose : Purpose) (p : Path) : Except OsError Place :=
  if p.text.isEmpty then .error .notFound
  else if '\x00' ∈ p.text then .error .nulByte
  else if p.text.length > pathLimit then .error .nameTooLong
  else tree.follow purpose linkLimit (tree.startOf p.text) (steps p.text)

/-- The place of what a path leads to; a link that comes last is followed if `followLast` is set. -/
def locate (tree : FileTree) (p : Path) (followLast : Bool) : Except OsError Place :=
  tree.locateFor (if followLast then .target else .itself) p

/-- The place of something that exists, and what it is. -/
def find (tree : FileTree) (p : Path) (followLast : Bool) : Except OsError (Place × Entry) := do
  let place ← tree.locate p followLast
  match tree.entry? place with
  | some entry => .ok (place, entry)
  | none => .error .notFound

/-- Whether the path leads to a file, through links if need be. -/
def isFile (tree : FileTree) (p : Path) : Bool :=
  match tree.find p true with
  | .ok (_, entry) => entry.isFile
  | .error _ => false

/-- Whether the path leads to a directory, through links if need be. -/
def isDir (tree : FileTree) (p : Path) : Bool :=
  match tree.find p true with
  | .ok (_, entry) => entry.isDir
  | .error _ => false

end CompileFail.FileTree
