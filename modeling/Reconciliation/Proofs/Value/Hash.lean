import Reconciliation.Proofs.Value.Order
import Reconciliation.Value.Hash

/-! # Hashes do not depend on the order of entries -/
namespace Reconciliation.Value

theorem itemTexts_eq (xs : List Value) :
    itemTexts xs = xs.map fun x => checksumText (canonicalText x) := by
  induction xs with
  | nil => rfl
  | cons x xs ih => rw [itemTexts, ih, List.map_cons]

theorem entryTexts_eq (es : Entries Value) :
    entryTexts es = Entries.mapValues (fun v => checksumText (canonicalText v)) es := by
  induction es with
  | nil => rfl
  | cons e es ih =>
    obtain ⟨k, v⟩ := e
    rw [entryTexts, ih, Entries.mapValues_cons]

theorem canonicalText_array (xs : List Value) :
    canonicalText (.array xs) =
      String.join (xs.map fun x => checksumText (canonicalText x)) := by
  rw [canonicalText, itemTexts_eq]

theorem canonicalText_object (es : Entries Value) :
    canonicalText (.object es) =
      String.join ((Entries.mapValues (fun v => checksumText (canonicalText v)) es).sorted.map
        fun e => e.1 ++ e.2) := by
  rw [canonicalText, entryTexts_eq]

@[simp] theorem canonicalText_ordered (v : Value) : canonicalText v.ordered = canonicalText v := by
  induction v with
  | array xs ih =>
    rw [ordered_array, canonicalText_array, canonicalText_array, List.map_map]
    exact congrArg _ (List.map_congr_left fun x hx => by simp [ih x hx])
  | object es ih =>
    have h : Entries.mapValues (fun v => checksumText (canonicalText v))
        (Entries.mapValues ordered es) =
        Entries.mapValues (fun v => checksumText (canonicalText v)) es := by
      simp only [Entries.mapValues, List.map_map]
      exact List.map_congr_left fun e he => by simp [ih e he]
    rw [ordered_object, canonicalText_object, canonicalText_object, Entries.mapValues_sorted, h,
      Entries.sorted_sorted]
  | _ => rfl

@[simp] theorem hash_ordered (v : Value) : v.ordered.hash = v.hash := by
  rw [hash, canonicalText_ordered, hash]

theorem SameTree.hash {v w : Value} (h : SameTree v w) : v.hash = w.hash := by
  rw [← hash_ordered v, h, hash_ordered]

/-! ## What a key reads -/

/-- The values of the key fields of an object; any other value is read whole. -/
def keyOf (key : List String) : Value → Value
  | .object es => .array (key.map (field es))
  | v => v

theorem correlationHash_eq (key : List String) (v : Value) :
    correlationHash key v = (keyOf key v).hash := by
  cases v <;> rfl

theorem keysDistinct_keyOf {v : Value} (h : v.keysDistinct = true) (key : List String) :
    (keyOf key v).keysDistinct = true := by
  cases v with
  | object es =>
    rw [keyOf, keysDistinct_array]
    intro x hx
    obtain ⟨field, -, rfl⟩ := List.mem_map.mp hx
    exact everywhere_field rfl (everywhere_object.mp h).2 field
  | _ => exact h

@[simp] theorem correlationHash_ordered (key : List String) (v : Value) :
    correlationHash key v.ordered = correlationHash key v := by
  cases v with
  | object es =>
    have h : key.map (field (Entries.mapValues ordered es).sorted) =
        (key.map (field es)).map ordered := by
      rw [List.map_map]
      exact List.map_congr_left fun k _ => field_ordered es k
    rw [ordered_object, correlationHash, correlationHash, h, ← ordered_array, hash_ordered]
  | _ => exact hash_ordered _

end Reconciliation.Value
