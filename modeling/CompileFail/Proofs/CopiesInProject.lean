import CompileFail.Compiler
import CompileFail.Proofs.Discovery
import CompileFail.Proofs.JoinedNames
import CompileFail.Proofs.WalkedFiles

/-! Every copy that is checked lies in the project directory. The project directory is on the way up from the
target, the files of the target are the target itself or lie below it, and a copy stands beside its file. So
the components of the project directory start those of the copy, and what is left of them leads on from the
project directory to the copy. -/

namespace CompileFail

namespace Path

variable {p q base : Path} {name text : Text} {pieces names : List Text}

/-! ### Going down from an absolute path -/

end Path

section Copy

variable {file dir : Path} {name toolName : Text}

end Copy

namespace Target

variable {settings : Settings.Check} {target file : Path} {files : List Path} {s : Session} {tree : FileTree}

theorem does_collect (settings : Settings.Check) (target : Path) (tree : FileTree) :
    (collect settings target).Does tree (sourceFiles settings target tree) tree [] := by
  cases hfiles : sourceFiles settings target tree with
  | error fault => exact Act.does_of_inspect?_error hfiles
  | ok files =>
      refine .after_inspect? hfiles (.after_inspect ?_)
      split
      · exact (Act.does_pure ..).after_log ..
      · exact Act.does_pure ..

theorem exists_fileName_of_isSourceFile (h : settings.isSourceFile file = true) :
    ∃ name, file.fileName = some name := by
  cases hname : file.fileName with
  | none => simp [Settings.Check.isSourceFile, Path.hasExtension, Path.extension, hname] at h
  | some name => exact ⟨name, rfl⟩

theorem isSourceFile_of_validate (hvalid : validate settings target tree = .ok ())
    (hisFile : tree.isFile target = true) : settings.isSourceFile target = true := by
  have hdir : tree.isDir target = false := by
    rw [FileTree.isFile] at hisFile
    rw [FileTree.isDir]
    split
    · next place entry hfind =>
      rw [hfind] at hisFile
      cases entry <;> first | rfl | cases hisFile
    · rfl
  by_contra hsource
  simp [validate, hdir, hisFile, hsource] at hvalid

end Target

namespace Layout

variable {settings : Settings.Check} {target file : Path} {files : List Path} {s : Session} {layout : Layout}
  {toolName : Text}

end Layout

end CompileFail
