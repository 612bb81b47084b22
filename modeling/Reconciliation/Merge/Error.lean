import Reconciliation.Schema.Basic
import Reconciliation.Traced
import Reconciliation.Value.Basic

/-! # Why a payload cannot be merged -/
namespace Reconciliation

inductive MergeError
  | payloadNotObject
  | notArray (property : String) (received : Value.Shape)
  | notObject (property : String) (received : Value.Shape)
  | notScalar (property : String) (kind : Kind) (received : String)
  | noElementSchema (property : String)
  | listOfUnknown (property : String)
  | setOfUnknown (property : String)
  | unsupportedKind (property : String) (kind : String)
  | missingIdentifier (property : String)
  | unsupportedIdentifier (property : String) (received : String)
  /-- An integer that no 64-bit binary number is near. -/
  | integerTooLarge
deriving DecidableEq

namespace MergeError

def property? : MergeError → Option String
  | payloadNotObject => some "<root>"
  | notArray p _ | notObject p _ | notScalar p _ _ | noElementSchema p | listOfUnknown p
  | setOfUnknown p | unsupportedKind p _ | missingIdentifier p | unsupportedIdentifier p _ =>
    some p
  | integerTooLarge => none

def about (property detail : String) : String := "property '" ++ property ++ "' " ++ detail

def message : MergeError → String
  | payloadNotObject => about "<root>" "payload must be an object"
  | notArray p received => about p ("expects an array but received " ++ received.text)
  | notObject p received => about p ("expects an object but received " ++ received.text)
  | notScalar p kind received =>
    about p ("expects a " ++ kind.text ++ " value but received '" ++ received ++ "'")
  | noElementSchema p => about p "does not declare a nested schema"
  | listOfUnknown p => about p "is supposed to be an array of objects"
  | setOfUnknown p => about p "is supposed to be a set of objects"
  | unsupportedKind p kind => "property '" ++ p ++ "': '" ++ kind ++ "' type not supported"
  | missingIdentifier p =>
    "response object returned from the API is missing mandatory identifier property '" ++ p ++ "'"
  | unsupportedIdentifier p received =>
    "identifier property '" ++ p ++ "' has unsupported type '" ++ received ++ "'"
  | integerTooLarge => "int too large to convert to float"

end MergeError

abbrev Merged (α : Type) := Traced MergeError α

end Reconciliation
