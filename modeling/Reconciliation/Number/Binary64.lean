/-! # Binary floating-point numbers

A finite number is a dyadic rational with at most 53 significant bits, so numeric equality is
equality of values and no arithmetic is needed beyond rounding to the nearest number.
-/
namespace Reconciliation

-- Powers are those of the core library, also where a module imports others.
attribute [local instance (10000)] instPowNat

namespace Binary64

/-- Odd numerator below `2 ^ 53`, no place beyond `2 ^ -1074`, and a magnitude below `2 ^ 1024`. -/
def Fits : Dyadic → Prop
  | .zero => True
  | .ofOdd n k _ => n.natAbs < 2 ^ (53 : Nat) ∧ k ≤ 1074 ∧ (n.natAbs.log2 : Int) < 1024 + k

instance : DecidablePred Fits
  | .zero => inferInstanceAs (Decidable True)
  | .ofOdd n k _ =>
    inferInstanceAs (Decidable
      (n.natAbs < 2 ^ (53 : Nat) ∧ k ≤ 1074 ∧ (n.natAbs.log2 : Int) < 1024 + k))

end Binary64

/-- A 64-bit binary number. Zero carries a sign; there is one value that is not a number. -/
inductive Binary64
  | nan
  | infinity (negative : Bool)
  | negativeZero
  | finite (value : Dyadic) (fits : Binary64.Fits value)
deriving DecidableEq

namespace Binary64

def zero : Binary64 := .finite .zero trivial

/-- The value of a finite number; both zeros have value zero. -/
def value? : Binary64 → Option Dyadic
  | .finite d _ => some d
  | .negativeZero => some .zero
  | _ => none

def isNaN : Binary64 → Bool
  | .nan => true
  | _ => false

def isFinite (x : Binary64) : Bool := x.value?.isSome

/-- Equality of numbers: zeros agree, and `nan` is equal to nothing. -/
def numericallyEqual : Binary64 → Binary64 → Bool
  | .infinity s, .infinity t => s == t
  | x, y => match x.value?, y.value? with
    | some a, some b => a == b
    | _, _ => false

def integer? : Dyadic → Option Int
  | .zero => some 0
  | .ofOdd n k _ => if k ≤ 0 then some (n * 2 ^ (-k).toNat) else none

def truncate : Dyadic → Int
  | .zero => 0
  | .ofOdd n k _ => if k ≤ 0 then n * 2 ^ (-k).toNat else n.tdiv (2 ^ k.toNat)

def truncated? (x : Binary64) : Option Int := x.value?.map truncate

/-- The binary place of the last bit kept for the positive number `num / den`. -/
def lastPlace (num den : Nat) : Int :=
  let guess : Int := num.log2 - den.log2
  let top := if den * 2 ^ guess.toNat ≤ num * 2 ^ (-guess).toNat then guess else guess - 1
  max (top - 52) (-1074)

/-- A quotient rounded to the nearest integer, a tie going to the even one. -/
def roundDiv (num den : Nat) : Nat :=
  let q := num / den
  let r := num % den
  if den < 2 * r ∨ (2 * r = den ∧ q % 2 = 1) then q + 1 else q

/-- The number nearest to a rational; too large a magnitude gives an infinity, and a negative
number too small for the format gives negative zero. -/
def nearest (x : Rat) : Binary64 :=
  let place := lastPlace x.num.natAbs x.den
  let q := roundDiv (x.num.natAbs * 2 ^ (-place).toNat) (x.den * 2 ^ place.toNat)
  if q = 0 then
    if x.num < 0 then .negativeZero else zero
  else
    let d := Dyadic.ofIntWithPrec (x.num.sign * q) (-place)
    if h : Fits d then .finite d h else .infinity (x.num < 0)

def ofInt? (n : Int) : Option Binary64 :=
  match nearest n with
  | .infinity _ => none
  | x => some x

def neg : Binary64 → Binary64
  | .nan => .nan
  | .infinity s => .infinity !s
  | .negativeZero => zero
  | .finite .zero _ => .negativeZero
  | .finite (.ofOdd n k h) fits =>
    .finite (.ofOdd (-n) k (by omega)) (by simpa [Fits] using fits)

end Binary64

end Reconciliation
