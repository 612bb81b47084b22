import Reconciliation.Proofs.Merge.Failure
import Reconciliation.Proofs.Number.Magnitude
import Reconciliation.Proofs.State.Session

/-! # Integers that cannot be rounded

An integer is merged into a floating-point number by rounding it. There is no number to round it to
if it is too large, and that is no fault of the document that a merge would name.
-/
namespace Reconciliation

open Merge

namespace Merge.Place

theorem fault?_tooLarge_iff {place : Place} : place.fault? = some .integerTooLarge ↔
    ∃ p n, place = .value p (.int n) ∧ p.writeOnly = false ∧ p.kind = .float ∧
      Binary64.tooLarge ≤ n.natAbs := by
  constructor
  · intro h
    cases place.faulty_of_fault? h with
    | tooLarge hw hk hn => exact ⟨_, _, rfl, hw, hk, Binary64.ofInt?_eq_none_iff.mp hn⟩
  · rintro ⟨p, n, rfl, hw, hk, hn⟩
    have hrejects : ¬Kind.accepts .float (.int n) = true := by
      rw [Kind.accepts, Binary64.ofInt?_eq_none_iff.mpr hn]
      exact Bool.false_ne_true
    rw [fault?, hw, if_neg Bool.false_ne_true, hk]
    exact if_neg hrejects

end Merge.Place

namespace Property

/-- The first fault of a remote value is an integer, where a floating-point number is declared, that
is too large to be rounded to one. -/
def MeetsTooLarge (p : Property) (remote : Value) : Prop :=
  ∃ before q n after, p.places remote = before ++ .value q (.int n) :: after ∧
    (∀ earlier ∈ before, earlier.fault? = none) ∧ q.writeOnly = false ∧ q.kind = .float ∧
    Binary64.tooLarge ≤ n.natAbs

theorem meetsTooLarge_iff {p : Property} {remote : Value} :
    p.MeetsTooLarge remote ↔ p.fault? remote = some .integerTooLarge := by
  rw [fault?, List.findSome?_eq_some_iff]
  constructor
  · rintro ⟨before, q, n, after, hplaces, hbefore, hq⟩
    exact ⟨before, _, after, hplaces, Place.fault?_tooLarge_iff.mpr ⟨q, n, rfl, hq⟩, hbefore⟩
  · rintro ⟨before, place, after, hplaces, hfault, hbefore⟩
    obtain ⟨q, n, rfl, hq⟩ := Place.fault?_tooLarge_iff.mp hfault
    exact ⟨before, q, n, after, hplaces, hbefore, hq⟩

/-- Arranging a list fails only on what is no list. -/
theorem arrangedRemote_ne_tooLarge (order : ListOrder) (p : Property) (remote stored : Value) :
    Schema.arrangedRemote order p remote stored ≠ .error .integerTooLarge := by
  have hitems (v : Value) : Traced.Errors (· ≠ .integerTooLarge) (arrayItems p.name v) := by
    unfold arrayItems
    split
    · exact .ok _
    · exact .error nofun
  have hreorder : Traced.Errors (· ≠ .integerTooLarge) (p.reorder stored remote) := by
    unfold reorder
    split
    · exact .ok _
    split
    · exact .ok _
    split
    · exact .ok _
    · apply (hitems stored).bind
      intro storedItems
      exact (hitems remote).bind fun _ => .ok _
  intro h
  rw [Schema.arrangedRemote] at h
  split at h
  · split at h
    · cases h
    · cases hr : p.reorder stored remote with
      | error e =>
        rw [hr] at h
        exact hreorder e hr (Except.error.inj h)
      | ok v =>
        rw [hr] at h
        cases h
  · cases h

theorem update_tooLarge_iff {order : ListOrder} {p : Property} (hp : p.Throughout Mergeable)
    {remote stored : Value} : (p.update order remote stored).result = .error .integerTooLarge ↔
      ∃ arranged, Schema.arrangedRemote order p remote stored = .ok (some arranged) ∧
        p.MeetsTooLarge arranged := by
  have hcoerce (arranged : Value) : (coerce p arranged stored).result = .error .integerTooLarge ↔
      p.MeetsTooLarge arranged := by
    rw [← Traced.error?_eq_some_iff, coerce_error? hp, meetsTooLarge_iff]
  rw [update, Traced.error_result_bind, Traced.result_ofExcept]
  constructor
  · rintro (h | ⟨a, ha, h⟩)
    · exact absurd h (arrangedRemote_ne_tooLarge order p remote stored)
    · cases a with
      | none => cases h
      | some arranged =>
        rcases Traced.error_result_bind.mp h with h | ⟨merged, -, h⟩
        · exact ⟨arranged, ha, (hcoerce arranged).mp h⟩
        · cases h
  · rintro ⟨arranged, ha, h⟩
    exact .inr ⟨_, ha, Traced.error_result_bind.mpr (.inl ((hcoerce arranged).mpr h))⟩

end Property

namespace Schema

variable {s : Schema} {order : ListOrder} {values : Entries Value} {e : MergeError}

theorem error_mergeProperty {name : String} {remote : Value} :
    (s.mergeProperty order values name remote).result = .error e ↔
      ∃ p, s.find? name = some p ∧ p.stateName ∉ reservedNames ∧
        (p.update order remote (Value.field values p.stateName)).result = .error e := by
  cases hf : s.find? name with
  | none =>
    rw [mergeProperty_undeclared hf]
    exact ⟨nofun, nofun⟩
  | some p =>
    by_cases hr : p.stateName ∈ reservedNames
    · rw [mergeProperty_reserved hf hr]
      constructor
      · nofun
      · rintro ⟨q, hq, hfree, -⟩
        obtain rfl := Option.some.inj hq
        exact absurd hr hfree
    · rw [mergeProperty_declared hf hr, map_eq_pure_bind, Traced.error_result_bind]
      constructor
      · rintro (h | ⟨u, -, h⟩)
        · exact ⟨p, rfl, hr, h⟩
        · cases h
      · rintro ⟨q, hq, -, h⟩
        obtain rfl := Option.some.inj hq
        exact .inl h

/-- A read fails at the first entry that cannot be merged into what the entries before it leave. -/
theorem error_mergeEntries {es : List (String × Value)} :
    (s.mergeEntries order es values).result = .error e ↔
      ∃ before name remote after next, es = before ++ (name, remote) :: after ∧
        (s.mergeEntries order before values).result = .ok next ∧
        (s.mergeProperty order next name remote).result = .error e := by
  induction es generalizing values with
  | nil =>
    constructor
    · nofun
    · rintro ⟨before, name, remote, after, next, h, -⟩
      simp at h
  | cons entry es ih =>
    obtain ⟨name, remote⟩ := entry
    rw [mergeEntries, Traced.error_result_bind]
    constructor
    · rintro (h | ⟨next, hnext, h⟩)
      · exact ⟨[], name, remote, es, values, rfl, rfl, h⟩
      · obtain ⟨before, name', remote', after, last, rfl, hbefore, h⟩ := ih.mp h
        refine ⟨(name, remote) :: before, name', remote', after, last, rfl, ?_, h⟩
        exact Traced.ok_bind.mpr ⟨next, hnext, hbefore⟩
    · rintro ⟨before, name', remote', after, last, heq, hbefore, h⟩
      cases before with
      | nil =>
        obtain ⟨hentry, -⟩ := List.cons.inj heq
        obtain ⟨rfl, rfl⟩ := Prod.mk.inj hentry
        obtain rfl := Except.ok.inj hbefore
        exact .inl h
      | cons first before =>
        obtain ⟨rfl, rfl⟩ := List.cons.inj heq
        obtain ⟨next, hnext, hbefore⟩ := Traced.ok_bind.mp hbefore
        exact .inr ⟨next, hnext, ih.mpr ⟨before, name', remote', after, last, rfl, hbefore, h⟩⟩

theorem extractIdentifier_ne_tooLarge (s : Schema) (payload : Entries Value) :
    s.extractIdentifier payload ≠ .error (.merge .integerTooLarge) := by
  intro h
  unfold extractIdentifier at h
  split at h
  · cases h
  · obtain ⟨e, he, hmerge⟩ := Traced.error_mapError.mp h
    obtain rfl := ReadError.merge.inj hmerge
    unfold identifierText at he
    split at he
    · cases he
    · cases he
    · split at he <;> cases he
    · cases he
    · cases he

end Schema

end Reconciliation
