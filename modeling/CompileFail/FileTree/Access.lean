import CompileFail.FileTree.Resolve

/-! Reading and changing a file tree. -/

namespace CompileFail.FileTree

/-- What a file holds. -/
def read (tree : FileTree) (p : Path) : Except OsError Content := do
  match ← tree.find p true with
  | (_, .file content _ _) => .ok content
  | (_, .device) => .ok (.text [])
  | _ => .error .isADirectory

/-- The text that a file holds. -/
def readText (tree : FileTree) (p : Path) : Except OsError Text := do
  match ← tree.read p with
  | .text t => .ok t
  | .binary _ => .error .invalidText

/-- The names in a directory, in order, each with what stands there. -/
def list (tree : FileTree) (p : Path) : Except OsError (List (Octets × Entry)) := do
  match ← tree.find p true with
  | (place, .dir) => .ok (tree.children place)
  | _ => .error .notADirectory

/-- Puts something into a file, a new one if there is none. A link leads to the file it names,
which may be missing as long as its directory is there. -/
def store (tree : FileTree) (p : Path) (content : Content) : Except OsError FileTree := do
  let place ← tree.locateFor .creation p
  match tree.entry? place with
  | some .dir => .error .isADirectory
  | some .device => .ok tree
  | some (.file _ executable _) => .ok (tree.insert place (.file content executable tree.clock))
  | _ => .ok (tree.insert place (.file content false tree.clock))

/-- Puts text into a file. -/
def write (tree : FileTree) (p : Path) (content : Text) : Except OsError FileTree :=
  tree.store p (.text content)

/-- Takes a file or a link away; a link's target stays. -/
def remove (tree : FileTree) (p : Path) : Except OsError FileTree := do
  match ← tree.find p false with
  | (_, .dir) => .error .isADirectory
  | (place, _) => .ok (tree.erase place)

/-- Gives a file of one's own the present time as its time of modification. -/
def touch (tree : FileTree) (p : Path) : Except OsError FileTree := do
  match ← tree.find p true with
  | (place, .file content executable _) =>
    if tree.foreign place then .error .notPermitted
    else .ok (tree.insert place (.file content executable tree.clock))
  | _ => .ok tree

end CompileFail.FileTree
