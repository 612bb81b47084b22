import Reconciliation.Proofs.Merge.Coercion

/-! # What a merge records

The only events of a merge are those of sets that drop an element.
-/
namespace Reconciliation

def Log.Event.IsDuplicate (e : Log.Event) : Prop := ∃ name hash, e = .duplicateSkipped name hash

open Log.Event (IsDuplicate)
open Traced (Records)

namespace Merge

theorem list_records {merge : Value → Value → Merged Value}
    (h : ∀ remote stored, Records IsDuplicate (merge remote stored)) (remote stored : List Value) :
    Records IsDuplicate (list merge remote stored) := by
  apply Records.mapM
  intro pair _
  exact h pair.1 pair.2

theorem distinct_records {merge : Value → Value → Merged Value}
    (h : ∀ remote stored, Records IsDuplicate (merge remote stored)) (name : String)
    (stored : Value → Value) (seen : List UInt32) (remote : List Value) :
    Records IsDuplicate (distinct name merge stored seen remote) := by
  induction remote generalizing seen with
  | nil => exact Records.pure []
  | cons r rs ih =>
    refine Records.bind (h r (stored r)) ?_
    intro merged
    by_cases hseen : merged.hash ∈ seen
    · rw [if_pos hseen]
      refine Records.bind (Records.record ⟨name, merged.hash, rfl⟩) ?_
      intro _
      exact ih seen
    · rw [if_neg hseen]
      refine Records.bind (ih (merged.hash :: seen)) ?_
      intro rest
      exact Records.pure _

end Merge

namespace Property

open Merge

def MergesQuietly (merge : Value → Value → Merged Value) : Prop :=
  ∀ remote stored, Records IsDuplicate (merge remote stored)

variable {p : Property}

theorem mergeObject_records (h : ∀ c ∈ p.children, MergesQuietly (coerce c)) :
    MergesQuietly p.mergeObject := by
  intro remote stored
  cases he : p.element with
  | none =>
    rw [mergeObject_none he]
    exact Records.throw _
  | some s =>
    rw [mergeObject_some he]
    refine Records.bind (Records.ofExcept _) ?_
    intro r
    apply Records.bind
    · apply Records.mapM
      intro c hc
      refine Records.bind (h c hc _ _) ?_
      intro v
      exact Records.pure _
    · intro es
      exact Records.pure _

theorem mergeList_records (h : MergesQuietly p.mergeObject) : MergesQuietly p.mergeList := by
  intro remote stored
  refine Records.bind (Records.ofExcept _) ?_
  intro rs
  refine Records.bind (list_records h rs stored.items) ?_
  intro vs
  exact Records.pure _

theorem mergeSet_records (h : MergesQuietly p.mergeObject) : MergesQuietly p.mergeSet := by
  intro remote stored
  refine Records.bind (Records.ofExcept _) ?_
  intro rs
  refine Records.bind (distinct_records h p.name _ [] rs) ?_
  intro vs
  exact Records.pure _

theorem coerce_records (p : Property) : MergesQuietly (coerce p) := by
  induction p with
  | step p ih =>
    have hobject := mergeObject_records ih
    intro remote stored
    rw [coerce_eq]
    split
    · exact Records.pure _
    · split
      · exact hobject remote stored
      · split
        · exact mergeList_records hobject remote stored
        · split
          · exact Records.ofExcept _
          · exact Records.throw _
      · split
        · exact mergeSet_records hobject remote stored
        · split
          · exact Records.ofExcept _
          · exact Records.throw _
      · exact Records.ofExcept _

end Property

end Reconciliation
