import Reconciliation.Merge.Error
import Reconciliation.Value.Equality

/-! # Keeping the stored order of a list

A remote list whose order carries no meaning is put into the stored order: items with a stored
counterpart come first, in the order of their counterparts, the others follow as received.
-/
namespace Reconciliation.Merge

mutual

/-- Whether a stored item, under state names, is the remote item, under payload names. Write-only
fields are not compared. -/
def sameItem (element : Option Schema) (stored remote : Value) : Bool :=
  match element with
  | none => stored.equals remote
  | some ⟨children, _⟩ =>
    if stored.isNull || remote.isNull then stored.isNull && remote.isNull
    else sameFields children stored.entries remote.entries
termination_by structural element

def sameFields (children : List Property) (stored remote : Entries Value) : Bool :=
  match children with
  | [] => true
  | p :: ps =>
    sameField p (Value.field stored p.stateName) (Value.field remote p.name) &&
      sameFields ps stored remote
termination_by structural children

def sameField (p : Property) (stored remote : Value) : Bool :=
  match p with
  | ⟨_, kind, writeOnly, _, element, _, _, _, _⟩ =>
    if writeOnly then true
    else if element.isNone then stored.equals remote
    else if kind = .object then sameItem element stored remote
    else match stored, remote with
      | .array xs, .array ys =>
        xs.length == ys.length && (xs.zip ys).all fun pair => sameItem element pair.1 pair.2
      | _, _ => stored.equals remote
termination_by structural p

end

def arranged (same : Value → Value → Bool) (stored remote : List Value) : List Value :=
  stored.filterMap (fun s => remote.find? (same s)) ++
    remote.filter fun r => !stored.any fun s => same s r

def arrayItems (property : String) : Value → Except MergeError (List Value)
  | .array xs => .ok xs
  | v => .error (.notArray property v.shape)

end Reconciliation.Merge

namespace Reconciliation.Property

def sameItem (p : Property) (stored remote : Value) : Bool :=
  Merge.sameItem p.element stored remote

/-- The remote value in the stored order, where order is to be ignored. -/
def reorder (p : Property) (stored remote : Value) : Except MergeError Value :=
  if stored.isNull then .ok remote
  else if remote.isNull then .ok stored
  else if !p.shouldIgnoreOrder then .ok remote
  else do
    let storedItems ← Merge.arrayItems p.name stored
    let remoteItems ← Merge.arrayItems p.name remote
    .ok (.array (Merge.arranged p.sameItem storedItems remoteItems))

end Reconciliation.Property
