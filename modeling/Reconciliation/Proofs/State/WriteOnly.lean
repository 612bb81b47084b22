import Reconciliation.Proofs.Schema.Decision
import Reconciliation.Proofs.State.Reconcile
import Reconciliation.Proofs.Value.Decision
import Reconciliation.Schema.Declaration

/-! # What a read does with write-only properties

What a payload holds for a write-only property is never stored. It is not looked at either, with one
exception: a list that is put into the stored order has to be an array, also if it is write-only.
-/
namespace Reconciliation

open Merge

/-- What is wrong with a write-only property of a payload: it is a list that is to follow the stored
order, both sides hold something, and one of them is no array. -/
def Property.orderFault? (order : ListOrder) (p : Property) (remote stored : Value) :
    Option MergeError :=
  if order = .stored ∧ p.shouldIgnoreOrder = true ∧ p.stateName ∉ Schema.reservedNames ∧
      stored.isNull = false ∧ remote.isNull = false then
    if stored.shape ≠ .array then some (.notArray p.name stored.shape)
    else if remote.shape ≠ .array then some (.notArray p.name remote.shape)
    else none
  else none

theorem Property.orderFault?_null (order : ListOrder) (p : Property) (stored : Value) :
    p.orderFault? order .null stored = none := by
  rw [orderFault?, if_neg (by simp [Value.isNull])]

/-- Something may be wrong with a property exactly if it is put into the stored order. -/
theorem Property.orderFault?_none_iff {order : ListOrder} {p : Property} :
    (∀ remote stored, p.orderFault? order remote stored = none) ↔
      order = .received ∨ p.shouldIgnoreOrder = false ∨ p.stateName ∈ Schema.reservedNames := by
  constructor
  · intro hnone
    by_contra hnot
    simp only [not_or] at hnot
    obtain ⟨horder, hignore, hreserved⟩ := hnot
    have horder : order = .stored := by
      cases order with
      | stored => rfl
      | received => exact absurd rfl horder
    -- A text in place of an array is wrong where an array is stored.
    have htext := hnone (.string "") (.array [])
    rw [orderFault?, if_pos ⟨horder, eq_true_of_ne_false hignore, hreserved, rfl, rfl⟩] at htext
    cases htext
  · intro hplain remote stored
    rw [orderFault?, if_neg]
    rintro ⟨rfl, hignore, hreserved, -⟩
    rcases hplain with h | h | h
    · cases h
    · rw [h] at hignore
      cases hignore
    · exact hreserved h

namespace Schema

variable {s : Schema} {order : ListOrder}

theorem updated_field (values : Entries Value) (key : String) :
    updated values key
      (if (Value.field values key).isNull then none else some (Value.field values key)) = values := by
  cases hget : values.get? key with
  | none =>
    rw [Value.field, hget]
    rfl
  | some v =>
    rw [Value.field, hget, Option.getD_some]
    split
    · rfl
    · exact Entries.set_of_get? hget

/-- A remote value can be put into the stored order unless it is at fault. -/
theorem arrangedRemote_eq (order : ListOrder) {p : Property} (hr : p.stateName ∉ reservedNames)
    (remote stored : Value) : ∃ a, arrangedRemote order p remote stored =
      (p.orderFault? order remote stored).elim (.ok a) .error := by
  rw [arrangedRemote, Property.orderFault?]
  by_cases hignore : order = .stored ∧ p.shouldIgnoreOrder = true
  case neg =>
    refine ⟨some remote, ?_⟩
    rw [if_neg (by simpa using hignore), if_neg fun h => hignore ⟨h.1, h.2.1⟩]
    rfl
  obtain ⟨rfl, hp⟩ := hignore
  simp only [Property.reorder, hp, hr, decide_true, Bool.and_self, if_true, true_and,
    not_false_eq_true]
  cases stored with
  | null => cases remote <;> exact ⟨_, rfl⟩
  | array xs => cases remote <;> first | exact ⟨none, rfl⟩ | exact ⟨_, rfl⟩
  | _ => cases remote <;> exact ⟨none, rfl⟩

/-- A write-only property of a payload leaves the values as they are, or is at fault. -/
theorem mergeProperty_writeOnly {name : String} {p : Property} (hp : s.find? name = some p)
    (hw : p.writeOnly = true) (values : Entries Value) (remote : Value) :
    s.mergeProperty order values name remote =
      (p.orderFault? order remote (Value.field values p.stateName)).elim (pure values)
        Traced.throw := by
  by_cases hr : p.stateName ∈ reservedNames
  · rw [mergeProperty_reserved hp hr, Property.orderFault?, if_neg (by simp [hr])]
    rfl
  obtain ⟨a, harranged⟩ := arrangedRemote_eq order hr remote (Value.field values p.stateName)
  rw [mergeProperty_declared hp hr, Property.update, harranged]
  cases p.orderFault? order remote (Value.field values p.stateName) with
  | some e => rfl
  | none =>
    rw [Option.elim_none, Option.elim_none, Traced.ofExcept_ok_bind]
    cases a with
    | none => rfl
    | some r =>
      simp only [Property.coerce_writeOnly hw]
      exact congrArg pure (updated_field values p.stateName)

/-- A read in which a write-only property comes: what is received for it decides at most whether the
read fails there. -/
theorem mergeEntries_writeOnly {name : String} {p : Property} (hp : s.find? name = some p)
    (hw : p.writeOnly = true) (before after : List (String × Value)) (values : Entries Value)
    (remote : Value) :
    s.mergeEntries order (before ++ (name, remote) :: after) values =
      s.mergeEntries order before values >>= fun values =>
        (p.orderFault? order remote (Value.field values p.stateName)).elim
          (s.mergeEntries order after values) Traced.throw := by
  rw [mergeEntries_append]
  refine congrArg _ (funext fun values => ?_)
  rw [mergeEntries, mergeProperty_writeOnly hp hw]
  cases p.orderFault? order remote (Value.field values p.stateName) <;> rfl

/-- What a payload holds for a write-only property is never stored: it decides at most whether the
read fails, by the check that a list put into the stored order is an array. It makes no difference to
any read if and only if the property is not put into the stored order at all. -/
theorem reconcile_writeOnly {name : String} {p : Property} (hp : s.find? name = some p)
    (hw : p.writeOnly = true) :
    (∀ before after values remote,
      s.reconcile order (.object (before ++ (name, remote) :: after)) values =
        s.mergeEntries order before values >>= fun values =>
          (p.orderFault? order remote (Value.field values p.stateName)).elim
            (s.mergeEntries order after values) Traced.throw) ∧
    ((∀ before after values remote remote',
      s.reconcile order (.object (before ++ (name, remote) :: after)) values =
        s.reconcile order (.object (before ++ (name, remote') :: after)) values) ↔
      order = .received ∨ p.shouldIgnoreOrder = false ∨ p.stateName ∈ reservedNames) := by
  have hread (before after : List (String × Value)) (values : Entries Value) (remote : Value) :
      s.reconcile order (.object (before ++ (name, remote) :: after)) values = _ :=
    mergeEntries_writeOnly hp hw before after values remote
  rw [← Property.orderFault?_none_iff]
  refine ⟨hread, ?_, ?_⟩
  · -- Where it makes no difference, every value is as good as null.
    intro hall remote stored
    have hsame := hall [] [] [(p.stateName, stored)] remote .null
    have hstored : Value.field [(p.stateName, stored)] p.stateName = stored := by
      simp [Value.field, Entries.get?_cons]
    rw [hread, hread] at hsame
    simp only [mergeEntries, Traced.pure_bind, hstored, Property.orderFault?_null] at hsame
    cases hfault : p.orderFault? order remote stored with
    | none => rfl
    | some e =>
      rw [hfault] at hsame
      cases hsame
  · intro hnone before after values remote remote'
    rw [hread, hread]
    simp only [hnone]

/-! ## Tags that are kept -/

def sampleTags : Property :=
  { name := "tags", kind := .list, writeOnly := true, ignoreOrder := true, itemKind := some .string }

def tagsDeclaration : Value :=
  .object [("properties", .array [.object [("name", .string "tags"), ("type", .string "list"),
    ("items", .string "string"), ("write_only", .bool true), ("ignore_order", .bool true)]])]

/-- A read in the stored order looks at the tags: a text is refused where tags are stored. A read in
the received order does not. -/
theorem sampleTags_read :
    Schema.find? ⟨[sampleTags], false⟩ "tags" = some sampleTags ∧ sampleTags.writeOnly = true ∧
      Schema.reconcile ⟨[sampleTags], false⟩ .stored (.object ([] ++ ("tags", .string "x") :: []))
        [("tags", .array [.string "a"])] =
          (pure [("tags", .array [.string "a"])] >>= fun values =>
            (sampleTags.orderFault? .stored (.string "x")
              (Value.field values sampleTags.stateName)).elim (pure values) Traced.throw) ∧
      (¬∀ before after values remote remote',
        Schema.reconcile ⟨[sampleTags], false⟩ .stored
            (.object (before ++ ("tags", remote) :: after)) values =
          Schema.reconcile ⟨[sampleTags], false⟩ .stored
            (.object (before ++ ("tags", remote') :: after)) values) ∧
      ∀ before after values remote remote',
        Schema.reconcile ⟨[sampleTags], false⟩ .received
            (.object (before ++ ("tags", remote) :: after)) values =
          Schema.reconcile ⟨[sampleTags], false⟩ .received
            (.object (before ++ ("tags", remote') :: after)) values := by
  have hfind : Schema.find? ⟨[sampleTags], false⟩ "tags" = some sampleTags := rfl
  refine ⟨hfind, rfl, (reconcile_writeOnly hfind rfl).1 [] [] _ _, ?_,
    (reconcile_writeOnly hfind rfl).2.mpr (Or.inl rfl)⟩
  intro hall
  exact absurd ((reconcile_writeOnly hfind rfl).2.mp hall) (by decide +kernel)

/-- A text in place of the tags makes a read fail that an array of tags does not. -/
theorem sampleTags_inspected :
    Declaration.schema tagsDeclaration = .ok ⟨[sampleTags], false⟩ ∧
      (Schema.reconcile ⟨[sampleTags], false⟩ .stored (.object [("tags", .array [.string "x"])])
        [("tags", .array [.string "a"])]).result = .ok [("tags", .array [.string "a"])] ∧
      (Schema.reconcile ⟨[sampleTags], false⟩ .stored (.object [("tags", .string "x")])
        [("tags", .array [.string "a"])]).result = .error (.notArray "tags" .scalar) := by
  refine ⟨rfl, ?_, ?_⟩
  · decide +kernel
  · decide +kernel

end Schema

end Reconciliation
