import Reconciliation.Number.Arithmetic
import Reconciliation.Number.Spelling
import Reconciliation.Text.Base64
import Reconciliation.Text.Case
import Reconciliation.Value.Basic
import Reconciliation.Yaml.Date
import Reconciliation.Yaml.Tag

/-! # The values of scalars -/
namespace Reconciliation.Yaml.Scalar

/-- Stands for a date, bytes or a set: something that is no value of any kind a reader asks for,
and that may count as nothing. -/
def outside (isNothing : Bool) : Value := .float (if isNothing then .zero else .nan)

def withoutUnderscores (s : String) : String := String.ofList (s.toList.filter (· != '_'))

def splitColons (cs : List Char) : List String := (cs.splitOn ':').map String.ofList

/-! ### Truth values -/

def truth (text : String) : Except Fault Bool :=
  let word := Text.lower text
  if ["yes", "true", "on"].contains word then .ok true
  else if ["no", "false", "off"].contains word then .ok false
  else .error (.notTruth word)

/-! ### Integers -/

def integerIn (base : Nat) (text : String) : Except Fault Int :=
  match Spelling.integer? base text with
  | some n => .ok n
  | none => .error (.notInteger base text)

/-- A decimal integer keeps to the limit on digits. Zeros in front of it count. -/
def decimalInteger (text : String) : Except Fault Int := do
  let n ← integerIn 10 text
  match Numeral.excess? Numeral.digitLimit ((Spelling.plain text).countP Char.isDigit) with
  | some e => .error (.tooManyDigits e)
  | none => .ok n

def unsignedInteger (cs : List Char) : Except Fault Int :=
  match cs with
  | [] => .error .emptyNumber
  | '0' :: 'b' :: ds => integerIn 2 (String.ofList ds)
  | '0' :: 'x' :: ds => integerIn 16 (String.ofList ds)
  | '0' :: _ => integerIn 8 (String.ofList cs)
  | _ =>
    if cs.contains ':' then do
      let parts ← (splitColons cs).mapM decimalInteger
      .ok (parts.foldl (fun n part => 60 * n + part) 0)
    else decimalInteger (String.ofList cs)

def integer (text : String) : Except Fault Int := do
  let (negative, cs) := Spelling.splitSign (withoutUnderscores text).toList
  let n ← unsignedInteger cs
  .ok (if negative then -n else n)

/-! ### Floating-point numbers -/

def floatOf (text : String) : Except Fault Binary64 :=
  match Spelling.float? text with
  | some x => .ok x
  | none => .error (.notFloat text)

/-- The sum of parts, the last one first. Each part weighs sixty times as much as the one before
it, and the sum is rounded part by part. -/
def sixtieths (total : Binary64) (weight : Int) : List Binary64 → Except Fault Binary64
  | [] => .ok total
  | x :: xs => match Binary64.ofInt? weight with
    | some w => sixtieths (total.add (x.mul w)) (60 * weight) xs
    | none => .error .numberTooLarge

def unsignedFloat (cs : List Char) : Except Fault Binary64 :=
  match String.ofList cs with
  | ".inf" => .ok (.infinity false)
  | ".nan" => .ok .nan
  | text =>
    if cs.contains ':' then do
      let parts ← (splitColons cs).mapM floatOf
      sixtieths .zero 1 parts.reverse
    else floatOf text

def float (text : String) : Except Fault Binary64 :=
  match (Text.lower (withoutUnderscores text)).toList with
  | [] => .error .emptyNumber
  | cs => do
    let (negative, cs) := Spelling.splitSign cs
    let x ← unsignedFloat cs
    .ok (if negative then x.neg else x)

/-! ### Dates and bytes -/

def date (text : String) : Except Fault Value :=
  let cs := match text.toList.reverse with
    | '\n' :: cs => cs.reverse
    | _ => text.toList
  match Date.read? cs with
  | none => .error .notDate
  | some d => match d.fault? with
    | some f => .error f
    | none => .ok (outside false)

def bytes (text : String) : Except Error Value :=
  if text.toList.all fun c => c.toNat < 128 then
    match Text.Base64.decode? text.toList with
    | some bs => .ok (outside bs.isEmpty)
    | none => .error .malformed
  else .error .malformed

def value (tag : Tag) (text : String) : Except Error Value :=
  match tag with
  | .null => .ok .null
  | .bool => ((truth text).map .bool).mapError .fault
  | .int => ((integer text).map .int).mapError .fault
  | .float => ((float text).map .float).mapError .fault
  | .string => .ok (.string text)
  | .timestamp => (date text).mapError .fault
  | .binary => bytes text
  | _ => .error .malformed

end Reconciliation.Yaml.Scalar
