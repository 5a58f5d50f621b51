import CompileFail.FileTree.Access

/-! Walking a directory tree: depth first, a directory before what is in it, and the names of each
directory in order. Links are listed and not followed, except for one that is the start. A directory is
opened by its path from the start; where it cannot be, the walk comes across the reason and goes on. -/

namespace CompileFail.FileTree

/-- What a walk comes across: what stands at a path, or why it could not be looked at. -/
abbrev Visit := Except OsError (Path × Entry)

/-- Everything below a directory. The number of levels is bounded by `levels`. -/
def walkBelow (tree : FileTree) : (levels : Nat) → Path → List Visit
  | 0, _ => []
  | levels + 1, p =>
    match tree.list p with
    | .error e => [.error (.walk p e)]
    | .ok members =>
      members.flatMap fun (name, entry) =>
        .ok (p.join name, entry) ::
          if entry.isDir then tree.walkBelow levels (p.join name) else []

/-- The start itself and everything below it. -/
def walk (tree : FileTree) (p : Path) : List Visit :=
  match tree.find p false, tree.find p true with
  | .error e, _ => [.error (.walk p e)]
  | .ok (_, .link _), .error e => [.error (.walk p e)]
  | .ok (_, entry), .ok (_, .dir) => .ok (p, entry) :: tree.walkBelow (tree.height + 1) p
  | .ok (_, entry), _ => [.ok (p, entry)]

end CompileFail.FileTree
