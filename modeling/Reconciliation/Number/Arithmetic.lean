import Reconciliation.Number.Binary64

/-! # Sums and products, rounded to the nearest number -/
namespace Reconciliation.Binary64

def isNegative : Binary64 → Bool
  | .infinity s => s
  | .negativeZero => true
  | .finite (.ofOdd n _ _) _ => n < 0
  | _ => false

def isZero (x : Binary64) : Bool := x.value? == some .zero

def signedZero (negative : Bool) : Binary64 := if negative then .negativeZero else zero

/-- A sum of zero is negative only if both numbers are. -/
def add (x y : Binary64) : Binary64 :=
  match x.value?, y.value? with
  | some a, some b =>
    let sum := a.toRat + b.toRat
    if sum = 0 then signedZero (x.isNegative && y.isNegative) else nearest sum
  | some _, none => y
  | none, some _ => x
  | none, none => if x = y then x else .nan

def mul (x y : Binary64) : Binary64 :=
  let negative := x.isNegative != y.isNegative
  match x.value?, y.value? with
  | some a, some b =>
    if x.isZero || y.isZero then signedZero negative else nearest (a.toRat * b.toRat)
  | _, _ =>
    if x.isNaN || y.isNaN || x.isZero || y.isZero then .nan else .infinity negative

end Reconciliation.Binary64
