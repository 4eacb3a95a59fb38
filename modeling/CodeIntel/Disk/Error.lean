/-!
# Failures of the file system
-/

namespace CodeIntel

inductive DiskError where
  | noSuchFile
  | permissionDenied
  | fileExists
  | notADirectory
  | isADirectory
  | nameTooLong
  | tooManyLinks
  | invalidArgument
  /-- The bytes of a file that is read as text are not UTF-8. -/
  | notText
deriving DecidableEq, Repr

namespace DiskError

def message : DiskError → String
  | .noSuchFile => "No such file or directory (os error 2)"
  | .permissionDenied => "Permission denied (os error 13)"
  | .fileExists => "File exists (os error 17)"
  | .notADirectory => "Not a directory (os error 20)"
  | .isADirectory => "Is a directory (os error 21)"
  | .nameTooLong => "File name too long (os error 36)"
  | .tooManyLinks => "Too many levels of symbolic links (os error 40)"
  | .invalidArgument => "file name contained an unexpected NUL byte"
  | .notText => "stream did not contain valid UTF-8"

end DiskError
end CodeIntel
