import CompileFail.FileTree.Access

/-! Setting up a file tree, entry by entry. Directories that an entry needs are made on the way. -/

namespace CompileFail.FileTree

/-- Makes one directory, unless it is there. -/
def makeDir (tree : FileTree) (p : Path) : Except OsError FileTree := do
  if tree.isDir p then .ok tree
  else
    let place ← tree.locate p false
    if (tree.entry? place).isSome then .error .notADirectory else .ok (tree.insert place .dir)

/-- Makes a directory and those that lead to it. -/
def makeDirs (tree : FileTree) (p : Path) : Except OsError FileTree :=
  p.ancestors.reverse.foldlM makeDir tree

def makeParent (tree : FileTree) (p : Path) : Except OsError FileTree :=
  tree.makeDirs (p.parent.getD ⟨[]⟩)

def addFile (tree : FileTree) (p : Path) (content : Content) (executable : Bool) :
    Except OsError FileTree := do
  let tree ← (← tree.makeParent p).store p content
  if executable then
    match ← tree.find p true with
    | (place, .file content _ modified) => .ok (tree.insert place (.file content true modified))
    | _ => .ok tree
  else .ok tree

def addLink (tree : FileTree) (p : Path) (target : Octets) : Except OsError FileTree := do
  let tree ← tree.makeParent p
  return tree.insert (← tree.locate p false) (.link target)

end CompileFail.FileTree
