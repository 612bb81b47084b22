import Reconciliation.Number.Numeral
import Reconciliation.Text.Literal

/-! # Why a text has no value -/
namespace Reconciliation.Yaml

-- Powers are those of the core library, also where a module imports others.
attribute [local instance (10000)] instPowNat

inductive DatePart
  | year
  | month
  | day
  | hour
  | minute
  | second
deriving DecidableEq

def DatePart.message : DatePart → String
  | year => "year 0 is out of range"
  | month => "month must be in 1..12"
  | day => "day is out of range for month"
  | hour => "hour must be in 0..23"
  | minute => "minute must be in 0..59"
  | second => "second must be in 0..59"

inductive Fault
  | notInteger (base : Nat) (text : String)
  | notFloat (text : String)
  | notTruth (text : String)
  /-- There is no text where a number should be. -/
  | emptyNumber
  /-- A number in so many parts that the weight of one is too large. -/
  | numberTooLarge
  | notDate
  /-- The text of a date is that of the default value of a mapping. -/
  | dateOfMapping
  | dateOutOfRange (part : DatePart)
  /-- An offset from universal time of a day or more, in minutes. -/
  | offsetOutOfRange (minutes : Int)
  /-- The code of an escape that stands for no character. -/
  | notCharacter (code : Nat)
  | tooManyDigits (e : Numeral.Excess)
deriving DecidableEq

namespace Fault

def durationText (minutes : Int) : String :=
  let seconds := minutes.fmod 1440 * 60
  "datetime.timedelta(days=" ++ toString (minutes.fdiv 1440) ++
    (if seconds = 0 then "" else ", seconds=" ++ toString seconds) ++ ")"

def shownLength : Nat := 200

/-- Codes from here on are beyond the range of codes. -/
def codeLimit : Nat := 2 ^ (31 : Nat)

def message : Fault → String
  | notInteger base text =>
    "invalid literal for int() with base " ++ toString base ++ ": " ++
      String.ofList ((Text.literal text).toList.take shownLength)
  | notFloat text => "could not convert string to float: " ++ Text.literal text
  | notTruth text => Text.literal text
  | emptyNumber => "string index out of range"
  | numberTooLarge => "int too large to convert to float"
  | notDate => "'NoneType' object has no attribute 'groupdict'"
  | dateOfMapping => "expected string or bytes-like object, got 'list'"
  | dateOutOfRange part => part.message
  | offsetOutOfRange minutes =>
    "offset must be a timedelta strictly between -timedelta(hours=24) and timedelta(hours=24), " ++
      "not " ++ durationText minutes ++ "."
  | notCharacter code =>
    if code < codeLimit then "chr() arg not in range(0x110000)"
    else "Python int too large to convert to C int"
  | tooManyDigits e => e.message

/-- Faults other than a text that is misspelled or a part that is out of range. -/
def isUnexpected : Fault → Bool
  | notTruth _ | emptyNumber | numberTooLarge | notDate | dateOfMapping => true
  | notCharacter code => codeLimit ≤ code
  | _ => false

end Fault

inductive Error
  /-- The text is not well formed, or nothing is known about one of its tags. -/
  | malformed
  | fault (f : Fault)
deriving DecidableEq

def Error.message : Error → String
  | malformed => "not a well-formed YAML document"
  | fault f => f.message

end Reconciliation.Yaml
