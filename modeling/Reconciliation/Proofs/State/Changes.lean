import Reconciliation.Proofs.Schema.Decision
import Reconciliation.Proofs.State.Session
import Reconciliation.Proofs.Value.Decision

/-! # The changes of a read

A read loses nothing and writes only where its payload names a property. So the changes between the
values before it and after it are exactly what the read has done: where the payload is silent, the
values are the same, and equal to themselves unless a number in them is none.
-/
namespace Reconciliation

open Value (keysDistinct nanFree)

/-- What the change of one property tells after a read of a payload: both values as they are stored,
a removal never, a change exactly if the values are not equal, and an addition or an update only where
the payload names the property and the state has a place for it. -/
structure Property.Tells (p : Property) (payload before after : Entries Value)
    (c : PropertyChange) : Prop where
  stateName : c.stateName = p.stateName
  previous : c.previous = Value.field before p.stateName
  merged : c.merged = Value.field after p.stateName
  kept : c.status ≠ .removed
  exact : p.writeOnly = false → (c.isChange = true ↔ c.previous.equals c.merged = false)
  named : c.status = .added ∨ c.status = .updated →
    p.writeOnly = false ∧ p.name ∈ payload.keys ∧ p.stateName ∉ Schema.reservedNames

namespace Schema

variable {s : Schema} {order : ListOrder} {payload values merged : Entries Value} {p : Property}

/-- A read does not touch a property that its payload does not name, or whose name is reserved. -/
theorem field_untouched (hn : (s.properties.map Property.stateName).Nodup) (hp : p ∈ s.properties)
    (h : (s.reconcile order (.object payload) values).result = .ok merged)
    (hother : p.name ∉ payload.keys ∨ p.stateName ∈ reservedNames) :
    Value.field merged p.stateName = Value.field values p.stateName := by
  rcases hother with hnamed | hreserved
  · have hget : merged.get? p.stateName = values.get? p.stateName := by
      apply mergeEntries_frame h
      intro e he q hq _ hname
      obtain ⟨hq, hqe⟩ := find?_spec hq
      obtain rfl := List.inj_on_of_nodup_map hn hq hp hname
      exact hnamed (hqe ▸ List.mem_map_of_mem he)
    rw [Value.field, hget, Value.field]
  · rw [Value.field, (reconcile_keeps h).reserved _ hreserved, Value.field]

theorem isNull_field_merged (h : (s.reconcile order (.object payload) values).result = .ok merged)
    {k : String} (hk : (Value.field values k).isNull = false) :
    (Value.field merged k).isNull = false := by
  rw [Value.field] at hk
  cases hget : values.get? k with
  | none =>
    rw [hget] at hk
    cases hk
  | some v =>
    rw [hget] at hk
    obtain ⟨w, hw, hnull⟩ := (reconcile_keeps h).nonNull k v hget hk
    rw [Value.field, hw]
    exact hnull

theorem tells_change (hn : (s.properties.map Property.stateName).Nodup)
    (hkeys : keysDistinct (.object values) = true) (hnan : nanFree (.object values) = true)
    (h : (s.reconcile order (.object payload) values).result = .ok merged) (hp : p ∈ s.properties) :
    p.Tells payload values merged (p.change values merged) := by
  have hstatus := p.hasStatus (Value.field values p.stateName) (Value.field merged p.stateName)
  -- What is not touched is equal to itself.
  have htouched (hdiffer : (Value.field values p.stateName).equals
      (Value.field merged p.stateName) = false) :
      p.name ∈ payload.keys ∧ p.stateName ∉ reservedNames := by
    have hself : (Value.field values p.stateName).equals (Value.field values p.stateName) = true :=
      Value.equals_refl (Value.everywhere_field rfl (Value.keysDistinct_object.mp hkeys).2 _)
        (Value.everywhere_field rfl (Value.nanFree_object.mp hnan) _)
    by_contra hnot
    rw [not_and_or, not_not] at hnot
    rw [field_untouched hn hp h hnot, hself] at hdiffer
    cases hdiffer
  constructor
  · rfl
  · rfl
  · rfl
  · intro hremoved
    change p.status _ _ = .removed at hremoved
    rw [hremoved] at hstatus
    cases hstatus with
    | removed _ hb ha =>
      rw [isNull_field_merged h hb] at ha
      cases ha
  · intro hw
    exact p.isChange_iff hw values merged
  · intro hchanged
    have hw : p.writeOnly = false := by
      apply eq_false_of_ne_true
      intro hw
      rcases hchanged with hc | hc <;>
        exact absurd ((Property.status_eq_writeOnly.mpr hw).symm.trans hc) (by decide)
    refine ⟨hw, htouched ((p.isChange_iff hw values merged).mp ?_)⟩
    rcases hchanged with hc | hc <;> rw [PropertyChange.isChange, hc] <;> rfl

/-- After a read there is one change for each declared property, in the order of declaration, and it
tells what the read has done to the property. -/
theorem reconcile_changes (hn : (s.properties.map Property.stateName).Nodup)
    (hkeys : keysDistinct (.object values) = true) (hnan : nanFree (.object values) = true)
    (h : (s.reconcile order (.object payload) values).result = .ok merged) :
    List.Forall₂ (fun p c => p.Tells payload values merged c) s.properties
      (s.changes values merged) := by
  rw [changes, List.forall₂_map_right_iff, List.forall₂_same]
  intro p hp
  exact tells_change hn hkeys hnan h hp

/-! ## A read of a volume -/

def volumeSchema : Schema :=
  ⟨[{ name := "id", kind := .string }, { name := "sizeInBytes", kind := .float },
    { name := "label", kind := .string }, { name := "mountPoint", kind := .string },
    { name := "passphrase", kind := .string, writeOnly := true }, { name := "zone", kind := .string }],
    false⟩

def storedVolume : Entries Value :=
  [("size_in_bytes", .int 1), ("label", .string "old"), ("zone", .string "a"),
    ("passphrase", .string "kept"), ("id", .string "other")]

def volumePayload : Entries Value :=
  [("id", .string "v"), ("zone", .null), ("label", .string "new"), ("passphrase", .string "sent"),
    ("mountPoint", .string "/"), ("sizeInBytes", .float (.nearest 1))]

def mergedVolume : Entries Value :=
  [("size_in_bytes", .float (.nearest 1)), ("label", .string "new"), ("zone", .string "a"),
    ("passphrase", .string "kept"), ("id", .string "other"), ("mount_point", .string "/")]

/-- A number that is written in another way, a null and a reserved name are no changes. -/
theorem changes_storedVolume :
    (volumeSchema.reconcile .stored (.object volumePayload) storedVolume).result =
      .ok mergedVolume ∧
    (volumeSchema.changes storedVolume mergedVolume).map PropertyChange.status =
      [.unchanged, .unchanged, .updated, .added, .writeOnly, .unchanged] ∧
    List.Forall₂ (fun p c => p.Tells volumePayload storedVolume mergedVolume c)
      volumeSchema.properties (volumeSchema.changes storedVolume mergedVolume) := by
  have hread : (volumeSchema.reconcile .stored (.object volumePayload) storedVolume).result =
      .ok mergedVolume := by decide +kernel
  refine ⟨hread, by decide +kernel, ?_⟩
  exact reconcile_changes (by decide +kernel) (by decide) (by decide) hread

end Schema

end Reconciliation
