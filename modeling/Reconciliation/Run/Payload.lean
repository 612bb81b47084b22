import Reconciliation.Files.Tree
import Reconciliation.Json.Reader

/-! # Payloads in files -/
namespace Reconciliation

inductive PayloadError
  | file (e : FileError)
  | unreadable (path : Path) (reason : String)
  | notObject (path : Path)
  | tooManyDigits (e : Numeral.Excess)
deriving DecidableEq

def PayloadError.message : PayloadError → String
  | file e => e.message
  | unreadable path reason => "Invalid remote payload " ++ path.text ++ ": " ++ reason
  | notObject path => "Remote payload root must be an object: " ++ path.text
  | tooManyDigits e => e.message

namespace Payload

def ofText (path : Path) (text : String) : Except PayloadError (Entries Value) :=
  match Json.read text with
  | .ok (.object es) => .ok es
  | .ok _ => .error (.notObject path)
  | .error .malformed => .error (.unreadable path Json.malformed)
  | .error (.tooManyDigits e) => .error (.tooManyDigits e)

def load (files : FileTree) (path : Path) : Except PayloadError (Entries Value) :=
  match files.read path with
  | .ok text => ofText path text
  | .error e => .error (.file e)

end Payload

end Reconciliation
