import Reconciliation.Number.Decimal

/-! # Numerals

The written form of a number: a sign, whole digits, fraction digits and an exponent, each kept as
written, so that reading and writing meet in one structure.
-/
namespace Reconciliation

structure Numeral where
  negative : Bool
  whole : List Char
  fraction : Option (List Char)
  /-- Whether the exponent is negative, and its digits. -/
  exponent : Option (Bool × List Char)
deriving DecidableEq

namespace Numeral

def digitValue (c : Char) : Nat := c.toNat - '0'.toNat

def natural (digits : List Char) : Nat :=
  digits.foldl (fun n c => 10 * n + digitValue c) 0

def signed (negative : Bool) (n : Nat) : Int := if negative then -n else n

def exponentValue (n : Numeral) : Int :=
  match n.exponent with
  | none => 0
  | some (negative, digits) => signed negative (natural digits)

def magnitude (n : Numeral) : Decimal :=
  let places := n.fraction.getD []
  ⟨natural (n.whole ++ places), n.exponentValue - places.length⟩

def isInteger (n : Numeral) : Bool := n.fraction.isNone && n.exponent.isNone

def toInt (n : Numeral) : Int := signed n.negative (natural n.whole)

def toBinary64 (n : Numeral) : Binary64 :=
  let x := n.magnitude.toBinary64
  if n.negative then x.neg else x

def text (n : Numeral) : List Char :=
  (if n.negative then ['-'] else []) ++ n.whole ++
    (match n.fraction with
      | none => []
      | some places => '.' :: places) ++
    (match n.exponent with
      | none => []
      | some (negative, digits) => 'e' :: (if negative then '-' else '+') :: digits)

def digitRun (cs : List Char) : List Char × List Char :=
  (cs.takeWhile Char.isDigit, cs.dropWhile Char.isDigit)

/-- A fraction is a point with at least one digit after it; otherwise nothing is taken. -/
def readFraction : List Char → Option (List Char) × List Char
  | '.' :: cs => match digitRun cs with
    | ([], _) => (none, '.' :: cs)
    | (places, rest) => (some places, rest)
  | cs => (none, cs)

def readExponentDigits (negative : Bool) (all cs : List Char) :
    Option (Bool × List Char) × List Char :=
  match digitRun cs with
  | ([], _) => (none, all)
  | (digits, rest) => (some (negative, digits), rest)

/-- An exponent is `e` or `E`, an optional sign and at least one digit; otherwise nothing is
taken. -/
def readExponent : List Char → Option (Bool × List Char) × List Char
  | e :: cs =>
    if e = 'e' ∨ e = 'E' then
      match cs with
      | '-' :: digits => readExponentDigits true (e :: cs) digits
      | '+' :: digits => readExponentDigits false (e :: cs) digits
      | _ => readExponentDigits false (e :: cs) cs
    else (none, e :: cs)
  | [] => (none, [])

/-- The numeral at the front of a text, without its sign. A leading zero stands alone. -/
def readUnsigned (negative : Bool) (cs : List Char) : Option (Numeral × List Char) :=
  let (whole, rest) := match cs with
    | '0' :: rest => (['0'], rest)
    | _ => digitRun cs
  if whole.isEmpty then none
  else
    let (fraction, rest) := readFraction rest
    let (exponent, rest) := readExponent rest
    some (⟨negative, whole, fraction, exponent⟩, rest)

def read? : List Char → Option (Numeral × List Char)
  | '-' :: cs => readUnsigned true cs
  | cs => readUnsigned false cs

/-- Which numbers are written positionally, and how long an exponent is at least. -/
structure Layout where
  leastExponent : Int
  pastExponent : Int
  exponentDigits : Nat

/-- Positional from `10 ^ -4` up to `10 ^ 16`, exponents of two digits or more. -/
def Layout.plain : Layout := ⟨-4, 16, 2⟩

def zeros (n : Nat) : List Char := List.replicate n '0'

def withoutTrailingZeros (digits : List Char) : List Char :=
  (digits.reverse.dropWhile (· == '0')).reverse

def padded (width : Nat) (digits : List Char) : List Char :=
  zeros (width - digits.length) ++ digits

/-- The digits `d₁d₂…` of a number `0.d₁d₂… * 10 ^ point`, laid out with at least one place. -/
def positional (negative : Bool) (digits : List Char) (point : Int) : Numeral :=
  if point ≤ 0 then ⟨negative, ['0'], some (zeros (-point).toNat ++ digits), none⟩
  else
    let whole := point.toNat
    let places := digits.drop whole
    ⟨negative, digits.take whole ++ zeros (whole - digits.length),
      some (if places.isEmpty then ['0'] else places), none⟩

def scientific (layout : Layout) (negative : Bool) (digits : List Char) (point : Int) : Numeral :=
  let e := point - 1
  let places := digits.drop 1
  ⟨negative, digits.take 1, if places.isEmpty then none else some places,
    some (e < 0, padded layout.exponentDigits (Nat.toDigits 10 e.natAbs))⟩

def ofDecimal (layout : Layout) (negative : Bool) (d : Decimal) : Numeral :=
  if d.digits = 0 then ⟨negative, ['0'], some ['0'], none⟩
  else
    let all := Nat.toDigits 10 d.digits
    let point : Int := all.length + d.exponent
    let digits := withoutTrailingZeros all
    if layout.leastExponent < point ∧ point ≤ layout.pastExponent then
      positional negative digits point
    else scientific layout negative digits point

def ofBinary64? (layout : Layout) : Binary64 → Option Numeral
  | .negativeZero => some (ofDecimal layout true ⟨0, 0⟩)
  | .finite .zero _ => some (ofDecimal layout false ⟨0, 0⟩)
  | .finite (.ofOdd n k h) fits =>
    let x := (Dyadic.ofOdd n k h).toRat
    if n < 0 then some (ofDecimal layout true
      (Decimal.shortest (Binary64.neg (.finite (.ofOdd n k h) fits)) (-x)))
    else some (ofDecimal layout false (Decimal.shortest (.finite (.ofOdd n k h) fits) x))
  | _ => none

def ofInt (n : Int) : Numeral :=
  ⟨n < 0, Nat.toDigits 10 n.natAbs, none, none⟩

/-- The most digits of a decimal integer that is read, if there is a limit. -/
def digitLimit : Option Nat := some 4300

structure Excess where
  digits : Nat
  limit : Nat
deriving DecidableEq

def Excess.message (e : Excess) : String :=
  "Exceeds the limit (" ++ toString e.limit ++ " digits) for integer string conversion: value has " ++
    toString e.digits ++ " digits; use sys.set_int_max_str_digits() to increase the limit"

def excess? (limit : Option Nat) (digits : Nat) : Option Excess :=
  limit.bind fun most => if most < digits then some ⟨digits, most⟩ else none

end Numeral

structure Numeral.Names where
  nan : String
  infinity : String

def Binary64.text (names : Numeral.Names) (x : Binary64) : List Char :=
  match Numeral.ofBinary64? .plain x with
  | some n => n.text
  | none => match x with
    | .infinity true => '-' :: names.infinity.toList
    | .infinity false => names.infinity.toList
    | _ => names.nan.toList

end Reconciliation
