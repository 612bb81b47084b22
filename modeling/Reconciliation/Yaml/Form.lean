import Reconciliation.Yaml.Date
import Reconciliation.Yaml.Tag

/-! # The tag that a text has by its form

A scalar without quotes is a truth value, a number, null or a date if its text has the form of
one. A line feed at the end of the text does not count.
-/
namespace Reconciliation.Yaml.Form

def truths : List String :=
  ["yes", "Yes", "YES", "true", "True", "TRUE", "on", "On", "ON",
   "no", "No", "NO", "false", "False", "FALSE", "off", "Off", "OFF"]

def nulls : List String := ["~", "null", "Null", "NULL"]

def infinities : List String := [".inf", ".Inf", ".INF"]

def notNumbers : List String := [".nan", ".NaN", ".NAN"]

def withoutSign : List Char → List Char
  | '-' :: cs => cs
  | '+' :: cs => cs
  | cs => cs

def isDigitIn (base : Nat) (c : Char) : Bool :=
  if base = 2 then c == '0' || c == '1'
  else if base = 8 then '0' ≤ c && c ≤ '7'
  else if base = 16 then c.isDigit || ('a' ≤ c && c ≤ 'f') || ('A' ≤ c && c ≤ 'F')
  else c.isDigit

def isDigits (base : Nat) (cs : List Char) : Bool :=
  !cs.isEmpty && cs.all fun c => isDigitIn base c || c == '_'

def startsWithDigit (cs : List Char) : Bool :=
  cs.head?.any Char.isDigit && isDigits 10 cs

def splitColons (cs : List Char) : List (List Char) := cs.splitOn ':'

def isSixtieth : List Char → Bool
  | [a] => a.isDigit
  | [a, b] => '0' ≤ a && a ≤ '5' && b.isDigit
  | _ => false

def isSixtieths (cs : List Char) : Bool :=
  match splitColons cs with
  | first :: part :: parts => startsWithDigit first && (part :: parts).all isSixtieth
  | _ => false

/-- A natural number in a base told by its beginning, or in sixtieths. -/
def isNatural : List Char → Bool
  | ['0'] => true
  | '0' :: 'b' :: ds => isDigits 2 ds
  | '0' :: 'x' :: ds => isDigits 16 ds
  | '0' :: ds => isDigits 8 ds
  | cs => startsWithDigit cs || isSixtieths cs

def isInteger (cs : List Char) : Bool := isNatural (withoutSign cs)

def isExponent : List Char → Bool
  | [] => true
  | e :: sign :: ds =>
    (e == 'e' || e == 'E') && (sign == '-' || sign == '+') && !ds.isEmpty && ds.all Char.isDigit
  | _ => false

def splitPoint? (cs : List Char) : Option (List Char × List Char) :=
  let whole := cs.takeWhile (· != '.')
  match cs.drop whole.length with
  | _ :: rest => some (whole, rest)
  | [] => none

def isPlace (c : Char) : Bool := c.isDigit || c == '_'

/-- Digits, a point, further digits and an exponent. Without a sign the digits before the point
may be left out. -/
def isDecimal (signed : Bool) (cs : List Char) : Bool :=
  match splitPoint? cs with
  | some (whole, rest) =>
    let places := rest.takeWhile isPlace
    isExponent (rest.drop places.length) &&
      (startsWithDigit whole || (!signed && whole.isEmpty && startsWithDigit places))
  | none => false

def isDecimalSixtieths (cs : List Char) : Bool :=
  match splitPoint? cs with
  | some (whole, places) => isSixtieths whole && places.all isPlace
  | none => false

def isFloat (cs : List Char) : Bool :=
  let unsigned := withoutSign cs
  isDecimal (unsigned.length < cs.length) unsigned || isDecimalSixtieths unsigned ||
    infinities.contains (String.ofList unsigned) || notNumbers.contains (String.ofList cs)

def line (s : String) : String :=
  match s.toList.reverse with
  | '\n' :: cs => String.ofList cs.reverse
  | _ => s

def tag (s : String) : Tag :=
  let l := line s
  let cs := l.toList
  if truths.contains l then .bool
  else if isFloat cs then .float
  else if isInteger cs then .int
  else if l = "<<" then .merge
  else if s = "" ∨ nulls.contains l then .null
  else if Date.isDate cs then .timestamp
  else if l = "=" then .default
  else if ["!", "&", "*"].contains l then .unknown
  else .string

def scalarTag (text : String) (plain : Bool) : Option String → Tag
  | none => if plain then tag text else .string
  | some name => if name = Tag.neutral then tag text else .ofName name

end Reconciliation.Yaml.Form
