import Reconciliation.Value.Basic

/-! # Equality of values

Objects are compared as mappings and numbers by their value; a truth value is never a number.
-/
namespace Reconciliation.Value

def sameKeys (es fs : Entries Value) : Bool :=
  es.keys.all fs.has && fs.keys.all es.has

def isNumber (n : Int) (x : Binary64) : Bool := x.value? == some (Dyadic.ofInt n)

mutual

def equals : Value → Value → Bool
  | .null, .null => true
  | .bool a, .bool b => a == b
  | .int m, .int n => m == n
  | .int m, .float x => isNumber m x
  | .float x, .int n => isNumber n x
  | .float x, .float y => x.numericallyEqual y
  | .string s, .string t => s == t
  | .array xs, .array ys => equalItems xs ys
  | .object es, .object fs => sameKeys es fs && equalEntries es fs
  | _, _ => false

def equalItems : List Value → List Value → Bool
  | [], [] => true
  | x :: xs, y :: ys => equals x y && equalItems xs ys
  | _, _ => false

def equalEntries : List (String × Value) → Entries Value → Bool
  | [], _ => true
  | (k, v) :: es, fs => (fs.get? k).any (equals v) && equalEntries es fs

end

end Reconciliation.Value
