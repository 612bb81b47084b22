import Reconciliation.Files.Tree
import Reconciliation.Json.Printer
import Reconciliation.Json.Reader
import Reconciliation.State.Basic

/-! # State files

A state is stored as a JSON object with the identifier under `id` and the values under `values`.
-/
namespace Reconciliation

inductive StateFileError
  | file (e : FileError)
  | unreadable (path : Path) (reason : String)
  | notObject (path : Path)
  | valuesNotObject (path : Path)
  | identifierNotString (path : Path)
  | tooManyDigits (e : Numeral.Excess)
deriving DecidableEq

def StateFileError.message : StateFileError → String
  | file e => e.message
  | unreadable path reason => "Invalid state file " ++ path.text ++ ": " ++ reason
  | notObject path => "State file root must be an object: " ++ path.text
  | valuesNotObject path => "State file 'values' must be an object: " ++ path.text
  | identifierNotString path => "State file 'id' must be a string: " ++ path.text
  | tooManyDigits e => e.message

namespace ResourceState

def document (state : ResourceState) : Value :=
  .object [("id", state.identifier.elim .null .string), ("values", .object state.values)]

def style : Json.Style := ⟨true, true⟩

def text (state : ResourceState) : String := style.print state.document ++ "\n"

/-- The values of a stored state; values that count as nothing are no values. -/
def storedValues (path : Path) (v : Value) : Except StateFileError (Entries Value) :=
  if v.isNothing then .ok []
  else match v with
    | .object es => .ok es
    | _ => .error (.valuesNotObject path)

def storedIdentifier (path : Path) : Value → Except StateFileError (Option String)
  | .null => .ok none
  | .string s => .ok (some s)
  | _ => .error (.identifierNotString path)

def ofDocument (path : Path) : Value → Except StateFileError ResourceState
  | .null => .ok {}
  | .object es => do
    let values ← storedValues path (Value.field es "values")
    let identifier ← storedIdentifier path (Value.field es "id")
    .ok ⟨identifier, values⟩
  | _ => .error (.notObject path)

def ofText (path : Path) (text : String) (limit : Option Nat := Numeral.digitLimit) :
    Except StateFileError ResourceState :=
  match Json.read text limit with
  | .ok v => ofDocument path v
  | .error .malformed => .error (.unreadable path Json.malformed)
  | .error (.tooManyDigits e) => .error (.tooManyDigits e)

/-- The state in a file. Before the first read there is no file, and the state is empty. -/
def load (files : FileTree) (path : Path) (limit : Option Nat := Numeral.digitLimit) :
    Except StateFileError ResourceState :=
  match files.has path with
  | .error e => .error (.file e)
  | .ok false => .ok {}
  | .ok true => match files.read path with
    | .ok text => ofText path text limit
    | .error e => .error (.file e)

def save (state : ResourceState) (files : FileTree) (path : Path) : Stored FileError :=
  files.save path (.text state.text)

end ResourceState

end Reconciliation
