import Reconciliation.Number.Numeral
import Reconciliation.Text.Blank
import Reconciliation.Text.Digits

/-! # Numbers as they are spelled

White space may stand around a number, and its digits may be of any script.
-/
namespace Reconciliation.Spelling

/-- A character in ASCII, if there is one: a space for white space beyond ASCII, and the digit of
the same value for a digit beyond ASCII. -/
def plainChar (c : Char) : Char :=
  if c.toNat < 128 then c
  else if Text.isBlank c then ' '
  else (Text.foreignDigit? c).getD c

def isSpace (c : Char) : Bool := c == ' ' || ('\t' ≤ c && c ≤ '\r')

def plain (s : String) : List Char :=
  let cs := s.toList.map plainChar
  ((cs.dropWhile isSpace).reverse.dropWhile isSpace).reverse

def splitSign : List Char → Bool × List Char
  | '-' :: cs => (true, cs)
  | '+' :: cs => (false, cs)
  | cs => (false, cs)

def digit? (base : Nat) (c : Char) : Option Nat :=
  let n :=
    if c.isDigit then c.toNat - '0'.toNat
    else if 'a' ≤ c ∧ c ≤ 'f' then c.toNat - 'a'.toNat + 10
    else if 'A' ≤ c ∧ c ≤ 'F' then c.toNat - 'A'.toNat + 10
    else base
  if n < base then some n else none

/-- The letter that may follow a zero in front of the digits of a base. -/
def baseLetter (base : Nat) : Option Char :=
  match base with
  | 2 => some 'b'
  | 8 => some 'o'
  | 16 => some 'x'
  | _ => none

def withoutMark (base : Nat) : List Char → List Char
  | '0' :: c :: ds => if baseLetter base = some c.toLower then ds else '0' :: c :: ds
  | ds => ds

def natural? (base : Nat) : List Char → Option Nat
  | [] => none
  | ds => ds.foldlM (fun n c => (digit? base c).map (base * n + ·)) 0

def integer? (base : Nat) (s : String) : Option Int :=
  let (negative, cs) := splitSign (plain s)
  (natural? base (withoutMark base cs)).map (Numeral.signed negative)

def numeral? (cs : List Char) : Option Numeral :=
  let (whole, rest) := Numeral.digitRun cs
  let (fraction, rest) := match rest with
    | '.' :: rest => let (places, rest) := Numeral.digitRun rest; (some places, rest)
    | _ => (none, rest)
  if whole.isEmpty && (fraction.getD []).isEmpty then none
  else match Numeral.readExponent rest with
    | (exponent, []) => some ⟨false, whole, fraction, exponent⟩
    | _ => none

def magnitude? (cs : List Char) : Option Binary64 :=
  match String.ofList (cs.map Char.toLower) with
  | "inf" | "infinity" => some (.infinity false)
  | "nan" => some .nan
  | _ => (numeral? cs).map Numeral.toBinary64

def float? (s : String) : Option Binary64 :=
  let (negative, cs) := splitSign (plain s)
  (magnitude? cs).map fun x => if negative then x.neg else x

end Reconciliation.Spelling
