import Reconciliation.Number.Binary64
import Reconciliation.Value.Basic

/-! # Workbooks -/
namespace Reconciliation

structure Sheet where
  title : String
  rows : List (List Value)

abbrev Workbook := List Sheet

namespace Sheet

def cellLength : Nat := 32767

def isForbidden (c : Char) : Bool := c.toNat < 32 && c != '\t' && c != '\n' && c != '\r'

structure CellError where
  text : String
deriving DecidableEq

def CellError.message (e : CellError) : String := e.text ++ " cannot be used in worksheets."

/-- The value that a cell holds after a value is written to it. A long text is cut. -/
def cell : Value → Except CellError Value
  | .string s =>
    let kept := String.ofList (s.toList.take cellLength)
    if kept.toList.any isForbidden then .error ⟨kept⟩ else .ok (.string kept)
  | v => .ok v

/-- Whether a value can be stored in a cell: an integer has to be near a floating-point number. -/
def isStorable : Value → Bool
  | .int n => (Binary64.ofInt? n).isSome
  | _ => true

def ofRows (title : String) (rows : List (List Value)) : Except CellError Sheet := do
  .ok ⟨title, ← rows.mapM fun row => row.mapM cell⟩

end Sheet

end Reconciliation
