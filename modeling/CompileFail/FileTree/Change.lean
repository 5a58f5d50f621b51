import CompileFail.FileTree.Access

/-! Changes to whole parts of a file tree: what stands at a place is made, taken away, copied or
moved together with all that is below it. -/

namespace CompileFail.FileTree

/-- All that stands at a place or below it. -/
def part (tree : FileTree) (place : Place) : List (Place × Entry) :=
  tree.toList.filter fun (other, _) => place.isPrefixOf other

def erasePart (tree : FileTree) (place : Place) : FileTree :=
  (tree.part place).foldl (fun tree (other, _) => tree.erase other) tree

/-- Puts what stands at a place also at another one, as new. -/
def copyPart (tree : FileTree) (source target : Place) : FileTree :=
  (tree.part source).foldl (fun tree (other, entry) =>
    let entry := match entry with
      | .file content executable _ => .file content executable tree.clock
      | entry => entry
    tree.insert (target ++ other.drop source.length) entry) tree

/-- Puts what stands at a place at another one instead. -/
def movePart (tree : FileTree) (source target : Place) : FileTree :=
  (tree.part source).foldl (fun tree (other, entry) =>
    tree.insert (target ++ other.drop source.length) entry) (tree.erasePart source)

/-- Makes a directory where nothing stands. -/
def makeNewDir (tree : FileTree) (p : Path) : Except OsError FileTree := do
  let place ← tree.locate p false
  if (tree.entry? place).isSome then .error (.other "File exists") else .ok (tree.insert place .dir)

/-- Takes an empty directory away. -/
def removeDir (tree : FileTree) (p : Path) : Except OsError FileTree := do
  match ← tree.find p false with
  | (place, .dir) =>
    if (tree.children place).isEmpty then .ok (tree.erase place)
    else .error (.other "Directory not empty")
  | _ => .error .notADirectory

/-- Whether a directory leads to a place. -/
def isWithin (dir place : Place) : Bool := dir.isPrefixOf place

end CompileFail.FileTree
