import Reconciliation.Merge.Elements

/-! # Merging a remote value into stored state

The merge follows the schema. Remote fields are read under payload names and stored under state
names; a write-only property keeps what is stored.
-/
namespace Reconciliation.Merge

/-- A scalar of the declared kind. A finite number is cut to its integral part for an integer, and
an integer is rounded for a floating-point number. -/
def scalar (property : String) (kind : Kind) (remote : Value) : Except MergeError Value :=
  match kind, remote with
  | .other name, _ => .error (.unsupportedKind property name)
  | _, .null => .ok .null
  | .string, .string s => .ok (.string s)
  | .boolean, .bool b => .ok (.bool b)
  | .integer, .int n => .ok (.int n)
  | .integer, .float x => match x.truncated? with
    | some n => .ok (.int n)
    | none => .error (.notScalar property kind remote.typeName)
  | .float, .float x => .ok (.float x)
  | .float, .int n => match Binary64.ofInt? n with
    | some x => .ok (.float x)
    | none => .error .integerTooLarge
  | _, _ => .error (.notScalar property kind remote.typeName)

def primitives (property : String) : Value → Except MergeError Value
  | .null => .ok .null
  | .array xs => .ok (.array xs)
  | v => .error (.notArray property v.shape)

/-- The entries of a remote object, seen through a one-element array; null has none. -/
def remoteEntries (property : String) (remote : Value) : Except MergeError (Entries Value) :=
  match remote.unwrapped with
  | .null => .ok []
  | .object es => .ok es
  | v => .error (.notObject property v.shape)

mutual

def coerce (p : Property) (remote stored : Value) : Merged Value :=
  match p with
  | ⟨name, kind, writeOnly, _, element, itemKind, _, _, key⟩ =>
    if writeOnly then pure stored
    else match kind with
      | .object => object name true element remote stored
      | .list =>
        if element.isSome then do
          let remote ← Traced.ofExcept (remoteItems name remote)
          let merged ← list (object name false element) remote stored.items
          pure (.array merged)
        else if itemKind.any Kind.isPrimitive then Traced.ofExcept (primitives name remote)
        else Traced.throw (.listOfUnknown name)
      | .set =>
        if element.isSome then do
          let remote ← Traced.ofExcept (remoteItems name remote)
          let merged ← set name (hashes element key) (object name false element) remote
            stored.items
          pure (.array merged)
        else if itemKind.any Kind.isPrimitive then Traced.ofExcept (primitives name remote)
        else Traced.throw (.setOfUnknown name)
      | kind => Traced.ofExcept (scalar name kind remote)
termination_by structural p

/-- An object merged field by field. It is stored in a one-element array if `wrappable` and its
schema asks for that. -/
def object (property : String) (wrappable : Bool) (element : Option Schema)
    (remote stored : Value) : Merged Value :=
  match element with
  | none => Traced.throw (.noElementSchema property)
  | some ⟨children, wraps⟩ => do
    let remote ← Traced.ofExcept (remoteEntries property remote)
    let merged ← fields children remote stored.entries
    let result := Value.object (Entries.ofList merged)
    pure (if wrappable && wraps then .array [result] else result)
termination_by structural element

def fields (children : List Property) (remote stored : Entries Value) :
    Merged (List (String × Value)) :=
  match children with
  | [] => pure []
  | p :: ps => do
    let v ← coerce p (Value.field remote p.name) (Value.field stored p.stateName)
    let rest ← fields ps remote stored
    pure ((p.stateName, v) :: rest)
termination_by structural children

end

end Reconciliation.Merge

namespace Reconciliation.Property

def mergeObject (p : Property) (remote stored : Value) : Merged Value :=
  Merge.object p.name (p.kind = .object) p.element remote stored

def mergeList (p : Property) (remote stored : Value) : Merged Value := do
  let remote ← Traced.ofExcept (Merge.remoteItems p.name remote)
  let merged ← Merge.list p.mergeObject remote stored.items
  pure (.array merged)

def mergeSet (p : Property) (remote stored : Value) : Merged Value := do
  let remote ← Traced.ofExcept (Merge.remoteItems p.name remote)
  let merged ← Merge.set p.name (Merge.hashes p.element p.correlationKey) p.mergeObject remote
    stored.items
  pure (.array merged)

end Reconciliation.Property
