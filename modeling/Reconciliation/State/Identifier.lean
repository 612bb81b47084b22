import Reconciliation.State.Basic

/-! # The identifier of a resource -/
namespace Reconciliation

inductive ReadError
  | schema (e : SchemaError)
  | merge (e : MergeError)
deriving DecidableEq

def ReadError.message : ReadError → String
  | .schema e => e.message
  | .merge e => e.message

/-- Whether an identifier is missing from the payload or the schema, rather than unusable. -/
def ReadError.isMissing : ReadError → Bool
  | .schema _ => true
  | .merge (.missingIdentifier _) => true
  | .merge _ => false

namespace Schema

/-- An identifier as text. Numbers are integral identifiers, however they are encoded. -/
def identifierText (name : String) : Value → Except MergeError String
  | .null => .error (.missingIdentifier name)
  | .int n => .ok (Value.intText n)
  | .float x => match x.truncated? with
    | some n => .ok (Value.intText n)
    | none => .error (.unsupportedIdentifier name (Value.float x).typeName)
  | .string s => .ok s
  | v => .error (.unsupportedIdentifier name v.typeName)

def extractIdentifier (s : Schema) (payload : Entries Value) : Except ReadError String :=
  match s.identifier with
  | .error e => .error (.schema e)
  | .ok p => (identifierText p.name (Value.field payload p.name)).mapError .merge

end Schema

namespace ResourceState

def assignIdentifier (state : ResourceState) (s : Schema) (payload : Entries Value) :
    Traced ReadError ResourceState := do
  let identifier ← Traced.ofExcept (s.extractIdentifier payload)
  Traced.record (.identifierAssigned identifier)
  pure { state with identifier := some identifier }

end ResourceState

end Reconciliation
