import Reconciliation.Files.Path
import Reconciliation.Text.Literal

/-! # Why a file cannot be used -/
namespace Reconciliation

inductive FileError.Cause
  | notFound
  | occupied
  | notDirectory
  | isDirectory
  /-- A path, or one of its parts, has too many bytes. -/
  | nameTooLong
  /-- A path holds a null character, as no path may. -/
  | nullCharacter
  | notText
deriving DecidableEq

structure FileError where
  cause : FileError.Cause
  path : Path
deriving DecidableEq

namespace FileError

def Cause.text : Cause → String
  | notFound => "[Errno 2] No such file or directory"
  | occupied => "[Errno 17] File exists"
  | notDirectory => "[Errno 20] Not a directory"
  | isDirectory => "[Errno 21] Is a directory"
  | nameTooLong => "[Errno 36] File name too long"
  | nullCharacter => "embedded null byte"
  | notText => "Not a text file"

/-- The cause, and the path unless it cannot be shown. -/
def message (e : FileError) : String :=
  if e.cause = .nullCharacter then e.cause.text
  else e.cause.text ++ ": " ++ Text.literal e.path.text

end FileError

end Reconciliation
