import Reconciliation.Proofs.Merge.Coercion
import Reconciliation.Proofs.Value.Hash

/-! # Merging does not read the order of stored entries

Stored values that are the same tree are merged into the same tree, with the same events, or fail
with the same error.
-/
namespace Reconciliation

namespace Value.SameTree

theorem field_entries {v w : Value} (h : SameTree v w) (k : String) :
    SameTree (Value.field v.entries k) (Value.field w.entries k) := by
  rw [SameTree, ← field_ordered, ← entries_ordered, h, entries_ordered, field_ordered]

theorem correlationHash {v w : Value} (h : SameTree v w) (key : List String) :
    v.correlationHash key = w.correlationHash key := by
  rw [← correlationHash_ordered, h, correlationHash_ordered]

/-- Entries written under the same keys with the same trees form the same tree. -/
theorem ofList {es fs : List (String × Value)}
    (h : List.Forall₂ (fun e f => e.1 = f.1 ∧ SameTree e.2 f.2) es fs) :
    SameTree (.object (Entries.ofList es)) (.object (Entries.ofList fs)) := by
  have hmap : Entries.mapValues Value.ordered es = Entries.mapValues Value.ordered fs := by
    rw [Entries.mapValues, Entries.mapValues, ← List.forall₂_eq_eq_eq, List.forall₂_map_left_iff,
      List.forall₂_map_right_iff]
    exact h.imp fun _ _ hef => Prod.ext hef.1 hef.2
  rw [SameTree, ordered_object, ordered_object, Entries.mapValues_ofList, Entries.mapValues_ofList,
    hmap]

theorem wrapped {es fs : Entries Value} (h : SameTree (.object es) (.object fs)) (wraps : Bool) :
    SameTree (Merge.wrapped wraps es) (Merge.wrapped wraps fs) := by
  cases wraps with
  | false => exact h
  | true => exact array (.cons h .nil)

end Value.SameTree

open Value (SameTree)
open Traced (Related)

namespace Merge

theorem list_related {merge : Value → Value → Merged Value}
    (hmerge : ∀ r l l', SameTree l l' → Related SameTree (merge r l) (merge r l'))
    {stored stored' : List Value} (h : List.Forall₂ SameTree stored stored')
    (remote : List Value) :
    Related (List.Forall₂ SameTree) (list merge remote stored) (list merge remote stored') := by
  have hremote : List.Forall₂ Eq remote remote := List.forall₂_same.mpr fun _ _ => rfl
  refine Related.mapM ((forall₂_paired hremote h rfl (SameTree.refl _)).imp ?_)
  rintro ⟨r, l⟩ ⟨r', l'⟩ ⟨rfl, hl⟩
  exact hmerge r l l' hl

def Hashes.Stable (h : Hashes) : Prop := ∀ v w, SameTree v w → h.stored v = h.stored w

theorem hashes_stable (element : Option Schema) (key : List String) :
    (hashes element key).Stable := by
  intro v w hvw
  rw [hashes]
  split
  · exact hvw.hash
  · exact hvw.correlationHash _

theorem counterpart_related {h : Hashes} (hs : h.Stable) {stored stored' : List Value}
    (hstored : List.Forall₂ SameTree stored stored') (remote : Value) :
    SameTree (counterpart h stored remote) (counterpart h stored' remote) := by
  rw [counterpart, counterpart]
  induction hstored with
  | nil => exact SameTree.refl _
  | @cons v w vs ws hvw _ ih =>
    rw [List.find?_cons, List.find?_cons, hs v w hvw]
    split
    · exact hvw
    · exact ih

theorem distinct_related {merge : Value → Value → Merged Value}
    (hmerge : ∀ r l l', SameTree l l' → Related SameTree (merge r l) (merge r l'))
    {stored stored' : Value → Value} (h : ∀ r, SameTree (stored r) (stored' r))
    (name : String) (seen : List UInt32) (remote : List Value) :
    Related (List.Forall₂ SameTree) (distinct name merge stored seen remote)
      (distinct name merge stored' seen remote) := by
  induction remote generalizing seen with
  | nil => exact Related.pure .nil
  | cons r rs ih =>
    rw [distinct, distinct]
    refine (hmerge r _ _ (h r)).bind fun v w hvw => ?_
    rw [hvw.hash]
    dsimp only
    split
    · exact Related.bind_same fun _ => ih seen
    · exact (ih _).bind fun vs ws hs => Related.pure (.cons hvw hs)

end Merge

namespace Property

open Merge

def MergesTrees (p : Property) : Prop :=
  ∀ remote stored stored', SameTree stored stored' →
    Related SameTree (coerce p remote stored) (coerce p remote stored')

theorem mergeObject_related {p : Property} (h : ∀ c ∈ p.children, c.MergesTrees)
    (remote stored stored' : Value) (hs : SameTree stored stored') :
    Related SameTree (p.mergeObject remote stored) (p.mergeObject remote stored') := by
  cases he : p.element with
  | none =>
    rw [mergeObject_none he, mergeObject_none he]
    exact Related.throw _
  | some s =>
    rw [mergeObject_some he, mergeObject_some he]
    apply Related.bind_same
    intro r
    refine Related.bind (R := List.Forall₂ fun e f => e.1 = f.1 ∧ SameTree e.2 f.2)
      (Related.mapM ?_) fun es fs hes => Related.pure ((SameTree.ofList hes).wrapped _)
    rw [List.forall₂_same]
    intro c hc
    exact (h c hc _ _ _ (hs.field_entries _)).bind fun v w hvw => Related.pure ⟨rfl, hvw⟩

theorem mergeList_related {p : Property} (h : ∀ c ∈ p.children, c.MergesTrees)
    (remote stored stored' : Value) (hs : SameTree stored stored') :
    Related SameTree (p.mergeList remote stored) (p.mergeList remote stored') := by
  apply Related.bind_same
  intro rs
  exact (list_related (mergeObject_related h) hs.items rs).bind fun vs ws hvs =>
    Related.pure (SameTree.array hvs)

theorem mergeSet_related {p : Property} (h : ∀ c ∈ p.children, c.MergesTrees)
    (remote stored stored' : Value) (hs : SameTree stored stored') :
    Related SameTree (p.mergeSet remote stored) (p.mergeSet remote stored') := by
  apply Related.bind_same
  intro rs
  rw [set_eq, set_eq]
  exact (distinct_related (mergeObject_related h)
    (counterpart_related (hashes_stable _ _) hs.items) _ _ rs).bind fun vs ws hvs =>
      Related.pure (SameTree.array hvs)

theorem coerce_related (p : Property) : p.MergesTrees := by
  induction p with
  | step p ih =>
    intro remote stored stored' hs
    have same (x : Merged Value) : Related SameTree x x := Related.refl SameTree.refl x
    rw [coerce_eq, coerce_eq]
    split
    · exact Related.pure hs
    · split
      · exact mergeObject_related ih remote stored stored' hs
      · split
        · exact mergeList_related ih remote stored stored' hs
        · split <;> exact same _
      · split
        · exact mergeSet_related ih remote stored stored' hs
        · split <;> exact same _
      · exact same _

end Property

end Reconciliation
