import Reconciliation.Merge.Coercion
import Reconciliation.Merge.Order

/-! # Reconciling a payload with stored values -/
namespace Reconciliation

/-- The local state of one resource: its identifier, and values under state names. -/
structure ResourceState where
  identifier : Option String := none
  values : Entries Value := []

/-- Whether a read follows the stored order of lists that declare their order meaningless. -/
inductive ListOrder
  | stored
  | received
deriving DecidableEq

namespace Schema

def reservedNames : List String := ["id"]

/-- The remote value to merge for a property, or nothing if there is nothing to merge. -/
def arrangedRemote (order : ListOrder) (p : Property) (remote stored : Value) :
    Except MergeError (Option Value) :=
  if order = .stored && p.shouldIgnoreOrder then
    if remote.isNull then .ok none else (p.reorder stored remote).map some
  else .ok (some remote)

/-- Merges one property of a payload into the values. Undeclared properties are recorded and
skipped; a property whose merged value is null keeps what is stored. -/
def mergeProperty (s : Schema) (order : ListOrder) (values : Entries Value) (name : String)
    (remote : Value) : Merged (Entries Value) :=
  match s.find? name with
  | none => do
    Traced.record (.undeclaredProperty name)
    pure values
  | some p =>
    if p.stateName ∈ reservedNames then pure values
    else do
      let stored := Value.field values p.stateName
      match ← Traced.ofExcept (arrangedRemote order p remote stored) with
      | none => pure values
      | some remote => do
        let merged ← Merge.coerce p remote stored
        pure (if merged.isNull then values else values.set p.stateName merged)

def mergeEntries (s : Schema) (order : ListOrder) :
    List (String × Value) → Entries Value → Merged (Entries Value)
  | [], values => pure values
  | (name, remote) :: rest, values => do
    let values ← s.mergeProperty order values name remote
    s.mergeEntries order rest values

def reconcile (s : Schema) (order : ListOrder) (payload : Value) (values : Entries Value) :
    Merged (Entries Value) :=
  match payload with
  | .object es => s.mergeEntries order es values
  | _ => Traced.throw .payloadNotObject

end Schema

end Reconciliation
