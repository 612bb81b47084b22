import Reconciliation.State.Basic

/-! # Changes between two states -/
namespace Reconciliation

inductive ChangeStatus
  | unchanged
  | added
  | updated
  | removed
  | writeOnly
deriving DecidableEq

namespace ChangeStatus

def all : List ChangeStatus := [unchanged, added, updated, removed, writeOnly]

def name : ChangeStatus → String
  | unchanged => "UNCHANGED"
  | added => "ADDED"
  | updated => "UPDATED"
  | removed => "REMOVED"
  | writeOnly => "WRITE_ONLY"

def smallName : ChangeStatus → String
  | unchanged => "unchanged"
  | added => "added"
  | updated => "updated"
  | removed => "removed"
  | writeOnly => "write_only"

def named? (name : String) : Option ChangeStatus := all.find? fun s => s.name == name

end ChangeStatus

structure PropertyChange where
  stateName : String
  status : ChangeStatus
  previous : Value
  merged : Value

/-- Whether the property counts as changed; a write-only property never does. -/
def PropertyChange.isChange (c : PropertyChange) : Bool :=
  c.status != .unchanged && c.status != .writeOnly

namespace Property

def status (p : Property) (before after : Value) : ChangeStatus :=
  if p.writeOnly then .writeOnly
  else if before.isNull && !after.isNull then .added
  else if !before.isNull && after.isNull then .removed
  else if before.equals after then .unchanged
  else .updated

def change (p : Property) (previous merged : Entries Value) : PropertyChange :=
  let before := Value.field previous p.stateName
  let after := Value.field merged p.stateName
  ⟨p.stateName, p.status before after, before, after⟩

end Property

def Schema.changes (s : Schema) (previous merged : Entries Value) : List PropertyChange :=
  s.properties.map fun p => p.change previous merged

end Reconciliation
