import Reconciliation.Schema.Basic

/-! # Properties and what they reach

A property reaches the children of its element schema. What holds of the whole tree below a
property is proved from the children up.
-/
namespace Reconciliation

namespace Property

def children (p : Property) : List Property := (p.element.map Schema.properties).getD []

theorem children_of_element {p : Property} {s : Schema} (h : p.element = some s) :
    p.children = s.properties := by
  rw [children, h]
  rfl

theorem isPrimitiveCollection_iff {p : Property} : p.isPrimitiveCollection = true ↔
    (p.kind = .list ∨ p.kind = .set) ∧ p.element.isSome = false ∧
      p.itemKind.any Kind.isPrimitive = true := by
  rw [isPrimitiveCollection, Bool.and_eq_true, Bool.and_eq_true, and_assoc]
  apply and_congr
  · cases p.kind <;> simp [Kind.isCollection]
  · cases p.element <;> simp

theorem children_of_isPrimitiveCollection {p : Property} (h : p.isPrimitiveCollection = true) :
    p.children = [] := by
  have hnone := Option.isSome_eq_false_iff.mp (isPrimitiveCollection_iff.mp h).2.1
  rw [children, Option.isNone_iff_eq_none.mp hnone]
  rfl

/-- A fact holds of every property if it holds wherever it holds of the children. -/
@[induction_eliminator]
theorem induct {P : Property → Prop} (step : ∀ p : Property, (∀ c ∈ p.children, P c) → P p)
    (p : Property) : P p :=
  Property.rec (motive_1 := P) (motive_2 := fun s => ∀ c ∈ s.properties, P c)
    (motive_3 := fun e => ∀ c ∈ (e.map Schema.properties).getD [], P c)
    (motive_4 := fun ps => ∀ c ∈ ps, P c)
    (fun _ _ _ _ _ _ _ _ _ h => step _ h) (fun _ _ h => h) (by simp) (fun _ h => h) (by simp)
    (fun _ _ hp hps => List.forall_mem_cons.mpr ⟨hp, hps⟩) p

inductive Throughout (P : Property → Prop) : Property → Prop
  | mk {p : Property} (own : P p) (children : ∀ c ∈ p.children, Throughout P c) : Throughout P p

/-- A condition on a property and on all that it reaches without passing through a write-only
property. -/
inductive Readable (P : Property → Prop) : Property → Prop
  | writeOnly {p : Property} (h : p.writeOnly = true) : Readable P p
  | mk {p : Property} (own : P p) (children : ∀ c ∈ p.children, Readable P c) : Readable P p

namespace Throughout

variable {P Q : Property → Prop} {p : Property}

theorem own (h : Throughout P p) : P p := by
  obtain ⟨h, -⟩ := h
  exact h

theorem children (h : Throughout P p) {c : Property} (hc : c ∈ p.children) : Throughout P c := by
  obtain ⟨-, h⟩ := h
  exact h c hc

end Throughout

theorem Readable.cases {P : Property → Prop} {p : Property} (h : Readable P p)
    (hw : p.writeOnly = false) : P p ∧ ∀ c ∈ p.children, Readable P c := by
  cases h with
  | writeOnly h => rw [hw] at h; cases h
  | mk own children => exact ⟨own, children⟩

def NamesDistinct (p : Property) : Prop := (p.children.map stateName).Nodup

end Property

structure Schema.Distinct (s : Schema) : Prop where
  top : (s.properties.map Property.stateName).Nodup
  below : ∀ p ∈ s.properties, p.Throughout Property.NamesDistinct

end Reconciliation
