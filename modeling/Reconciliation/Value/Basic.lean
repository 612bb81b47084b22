import Reconciliation.Number.Numeral
import Reconciliation.Value.Entries

/-! # Value trees -/
namespace Reconciliation

inductive Value
  | null
  | bool (b : Bool)
  | int (n : Int)
  | float (x : Binary64)
  | string (s : String)
  | array (items : List Value)
  | object (entries : List (String × Value))
deriving Inhabited

namespace Value

/-- The structural variants of a node. -/
inductive Shape
  | null
  | scalar
  | object
  | array
deriving DecidableEq

def Shape.text : Shape → String
  | null => "null"
  | scalar => "scalar"
  | object => "object"
  | array => "array"

def shape : Value → Shape
  | .null => .null
  | .array _ => .array
  | .object _ => .object
  | _ => .scalar

def isNull : Value → Bool
  | .null => true
  | _ => false

/-- Whether a value counts as nothing: null, false, zero, or an empty text, array or object. -/
def isNothing : Value → Bool
  | .null => true
  | .bool b => !b
  | .int n => n == 0
  | .float x => x.value? == some .zero
  | .string s => s == ""
  | .array xs => xs.isEmpty
  | .object es => es.isEmpty

def typeName : Value → String
  | .null => "NoneType"
  | .bool _ => "bool"
  | .int _ => "int"
  | .float _ => "float"
  | .string _ => "str"
  | .array _ => "list"
  | .object _ => "dict"

/-- The value under a key; a key that is absent reads as null. -/
def field (es : Entries Value) (key : String) : Value := (es.get? key).getD .null

def items : Value → List Value
  | .array xs => xs
  | _ => []

/-- The value itself, or the object in a one-element array around it. -/
def unwrapped : Value → Value
  | .array [.object es] => .object es
  | v => v

def entries (v : Value) : Entries Value :=
  match v.unwrapped with
  | .object es => es
  | _ => []

end Value

end Reconciliation
