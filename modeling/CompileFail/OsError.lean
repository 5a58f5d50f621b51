import CompileFail.Path

/-! What the operating system answers when it refuses a request, with its wording. -/

namespace CompileFail

inductive OsError where
  | notFound
  | notPermitted
  | permissionDenied
  | notADirectory
  | isADirectory
  | nameTooLong
  | tooManyLinks
  | notExecutable
  | nulByte
  | emptyPath
  /-- No thread can be started. -/
  | exhausted
  /-- A file that should hold text is not valid UTF-8. -/
  | invalidText
  /-- The listing of a directory tree stopped at a path. -/
  | walk (path : Path) (cause : OsError)
  | other (text : Text)
deriving DecidableEq, Repr

namespace OsError

def message : OsError → Text
  | notFound => "No such file or directory (os error 2)"
  | notPermitted => "Operation not permitted (os error 1)"
  | permissionDenied => "Permission denied (os error 13)"
  | notADirectory => "Not a directory (os error 20)"
  | isADirectory => "Is a directory (os error 21)"
  | nameTooLong => "File name too long (os error 36)"
  | tooManyLinks => "Too many levels of symbolic links (os error 40)"
  | notExecutable => "Exec format error (os error 8)"
  | nulByte => "file name contained an unexpected NUL byte"
  | emptyPath => "cannot make an empty path absolute"
  | exhausted => "Resource temporarily unavailable (os error 11)"
  | invalidText => "stream did not contain valid UTF-8"
  | walk path cause =>
    ("IO error for operation on " : Text) ++ path.display ++ (": " : Text) ++ cause.message
  | other text => text

end OsError

end CompileFail
