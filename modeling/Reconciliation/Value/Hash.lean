import Reconciliation.Checksum.Crc32
import Reconciliation.Value.Basic

/-! # Structural hashes

The canonical text of an object lists its entries by ascending key, so the order of entries does
not take part; an integral number has one text whether it is an integer or not.
-/
namespace Reconciliation.Value

def hashNames : Numeral.Names := ⟨"nan", "inf"⟩

def intText (n : Int) : String := String.ofList (Numeral.ofInt n).text

/-- An integral number is written as an integer. -/
def floatText (x : Binary64) : String :=
  match x.value?.bind Binary64.integer? with
  | some n => intText n
  | none => String.ofList (x.text hashNames)

def scalarText : Value → String
  | .null => "null"
  | .bool true => "true"
  | .bool false => "false"
  | .int n => intText n
  | .float x => floatText x
  | .string s => s
  | _ => ""

def checksumText (text : String) : String := intText (Crc32.ofText text).toNat

mutual

def canonicalText : Value → String
  | .array xs => String.join (itemTexts xs)
  | .object es => String.join ((Entries.sorted (entryTexts es)).map fun e => e.1 ++ e.2)
  | v => scalarText v

def itemTexts : List Value → List String
  | [] => []
  | x :: xs => checksumText (canonicalText x) :: itemTexts xs

def entryTexts : List (String × Value) → Entries String
  | [] => []
  | (k, v) :: es => (k, checksumText (canonicalText v)) :: entryTexts es

end

def hash (v : Value) : UInt32 := Crc32.ofText (canonicalText v)

/-- The hash of an object's values under the key fields, read in the given order; any other value
is hashed whole. -/
def correlationHash (key : List String) : Value → UInt32
  | .object es => hash (.array (key.map (field es)))
  | v => hash v

end Reconciliation.Value
