import Reconciliation.Number.Binary64

/-! # Decimal numbers and the fewest digits that read back -/
namespace Reconciliation

-- Powers are those of the core library, also where a module imports others.
attribute [local instance (10000)] instPowNat

structure Decimal where
  digits : Nat
  exponent : Int
deriving DecidableEq

namespace Decimal

def length (n : Nat) : Nat :=
  if n = 0 then 0 else (Nat.toDigits 10 n).length

def toRat (d : Decimal) : Rat :=
  if 0 ≤ d.exponent then ((d.digits * 10 ^ d.exponent.toNat : Nat) : Rat)
  else mkRat d.digits (10 ^ (-d.exponent).toNat)

/-- The nearest binary number. Magnitudes far outside the format are settled by their length,
so that no power of ten of their size is computed. -/
def toBinary64 (d : Decimal) : Binary64 :=
  let top := (length d.digits : Int) + d.exponent
  if d.digits = 0 ∨ top < -330 then .zero
  else if 310 < top then .infinity false
  else .nearest d.toRat

/-- For a positive rational, the least `k` such that it is below `10 ^ k`. -/
def scale (x : Rat) : Int :=
  let num := x.num.natAbs
  if x.den ≤ num then length (num / x.den) else 1 - length ((x.den - 1) / num)

def steps (x : Rat) (exponent : Int) : Nat :=
  x.num.natAbs * 10 ^ (-exponent).toNat / (x.den * 10 ^ exponent.toNat)

/-- Of two neighbours on a grid the nearer one, a tie going to the even one. -/
def nearer (x : Rat) (low high : Decimal) : Decimal :=
  let middle := (low.toRat + high.toRat) / 2
  if x < middle ∨ (x = middle ∧ low.digits % 2 = 0) then low else high

/-- Among the two neighbours of `x` on the grid of `n` digits, the one that reads back as the
binary number `b`. -/
def withDigits? (b : Binary64) (x : Rat) (n : Nat) : Option Decimal :=
  let exponent := scale x - n
  let low : Decimal := ⟨steps x exponent, exponent⟩
  let high : Decimal := ⟨low.digits + 1, exponent⟩
  match low.toBinary64 == b, high.toBinary64 == b with
  | true, true => some (nearer x low high)
  | true, false => some low
  | false, true => some high
  | false, false => none

/-- A dyadic rational has a finite decimal expansion. -/
def exact (x : Rat) : Decimal :=
  let places := x.den.log2
  ⟨x.num.natAbs * 5 ^ places, -places⟩

/-- The shortest decimal that reads back as the positive binary number `b` of value `x`. -/
def shortest (b : Binary64) (x : Rat) : Decimal :=
  ((List.range 17).findSome? fun n => withDigits? b x (n + 1)).getD (exact x)

end Decimal

end Reconciliation
