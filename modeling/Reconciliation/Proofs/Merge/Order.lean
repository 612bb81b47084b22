import Reconciliation.Merge.Order
import Reconciliation.Proofs.Merge.SameTree
import Reconciliation.Proofs.Value.Equality

/-! # Comparing stored items with remote ones

One equation for the comparison of items and one for that of fields. Neither reads the order of
entries, so neither does the arrangement of a list.
-/
namespace Reconciliation

open Value (SameTree)

namespace Merge

theorem mem_of_mem_arranged {same : Value → Value → Bool} {stored remote : List Value} {r : Value}
    (h : r ∈ arranged same stored remote) : r ∈ remote := by
  rw [arranged] at h
  rcases List.mem_append.mp h with h | h
  · obtain ⟨s, -, hs⟩ := List.mem_filterMap.mp h
    exact List.mem_of_find?_eq_some hs
  · exact List.mem_of_mem_filter h

theorem sameFields_eq (children : List Property) (stored remote : Entries Value) :
    sameFields children stored remote = children.all fun c =>
      sameField c (Value.field stored c.stateName) (Value.field remote c.name) := by
  induction children with
  | nil => rfl
  | cons c cs ih => rw [sameFields, List.all_cons, ih]

def sameItems (same : Value → Value → Bool) (xs ys : List Value) : Bool :=
  xs.length == ys.length && (xs.zip ys).all fun pair => same pair.1 pair.2

theorem sameItems_iff {same : Value → Value → Bool} {xs ys : List Value} :
    sameItems same xs ys = true ↔ List.Forall₂ (fun x y => same x y = true) xs ys := by
  rw [sameItems, Bool.and_eq_true, beq_iff_eq, List.all_eq_true, List.forall₂_iff_zip]
  refine and_congr_right fun _ => ?_
  exact ⟨fun h x y hxy => h (x, y) hxy, fun h pair hp => h hp⟩

theorem sameItems_cons (same : Value → Value → Bool) (x y : Value) (xs ys : List Value) :
    sameItems same (x :: xs) (y :: ys) = (same x y && sameItems same xs ys) := by
  rw [Bool.eq_iff_iff, Bool.and_eq_true, sameItems_iff, sameItems_iff, List.forall₂_cons]

end Merge

namespace Property

open Merge

theorem sameItem_none {p : Property} (h : p.element = none) (stored remote : Value) :
    p.sameItem stored remote = stored.equals remote := by
  rw [sameItem, h]
  rfl

theorem sameItem_some {p : Property} {s : Schema} (h : p.element = some s)
    (stored remote : Value) : p.sameItem stored remote =
      if stored.isNull || remote.isNull then stored.isNull && remote.isNull
      else p.children.all fun c =>
        sameField c (Value.field stored.entries c.stateName)
          (Value.field remote.entries c.name) := by
  obtain ⟨children, wraps⟩ := s
  rw [sameItem, children_of_element h, h, Merge.sameItem, sameFields_eq]

theorem sameField_eq (p : Property) (stored remote : Value) : sameField p stored remote =
    if p.writeOnly then true
    else if p.element.isNone then stored.equals remote
    else if p.kind = .object then p.sameItem stored remote
    else match stored, remote with
      | .array xs, .array ys => sameItems p.sameItem xs ys
      | _, _ => stored.equals remote := by
  obtain ⟨name, kind, writeOnly, ignoreOrder, element, itemKind, isIdentifier, preferred, key⟩ := p
  unfold sameField
  rfl

/-! ## The order of entries -/

/-- The comparison of fields does not read the order of entries. -/
def ComparesTrees (p : Property) : Prop :=
  ∀ stored stored' remote remote', SameTree stored stored' → SameTree remote remote' →
    sameField p stored remote = sameField p stored' remote'

theorem sameItem_trees {p : Property} (ih : ∀ c ∈ p.children, c.ComparesTrees)
    {stored stored' remote remote' : Value} (hs : SameTree stored stored')
    (hr : SameTree remote remote') : p.sameItem stored remote = p.sameItem stored' remote' := by
  cases he : p.element with
  | none => rw [sameItem_none he, sameItem_none he, hs.equals hr]
  | some s =>
    rw [sameItem_some he, sameItem_some he, hs.isNull, hr.isNull]
    refine congrArg _ (Bool.eq_iff_iff.mpr ?_)
    rw [List.all_eq_true, List.all_eq_true]
    refine forall₂_congr fun c hc => ?_
    rw [ih c hc _ _ _ _ (hs.field_entries _) (hr.field_entries _)]

theorem sameItems_trees {same : Value → Value → Bool}
    (h : ∀ {x x' y y' : Value}, SameTree x x' → SameTree y y' → same x y = same x' y')
    {xs xs' ys ys' : List Value} (hx : List.Forall₂ SameTree xs xs')
    (hy : List.Forall₂ SameTree ys ys') : sameItems same xs ys = sameItems same xs' ys' := by
  induction hx generalizing ys ys' with
  | nil => cases hy <;> rfl
  | cons hxx _ ih =>
    cases hy with
    | nil => rfl
    | cons hyy hys => rw [sameItems_cons, sameItems_cons, h hxx hyy, ih hys]

theorem sameField_trees (p : Property) : p.ComparesTrees := by
  induction p with
  | step p ih =>
    intro stored stored' remote remote' hs hr
    rw [sameField_eq, sameField_eq]
    split
    · rfl
    · split
      · exact hs.equals hr
      · split
        · exact sameItem_trees ih hs hr
        · have hshape := hs.shape
          have hshape' := hr.shape
          cases stored <;> cases stored' <;> simp only [Value.shape, reduceCtorEq] at hshape
          case array.array xs xs' =>
            cases remote <;> cases remote' <;> simp only [Value.shape, reduceCtorEq] at hshape'
            case array.array ys ys' => exact sameItems_trees (sameItem_trees ih) hs.items hr.items
            all_goals exact hs.equals hr
          all_goals exact hs.equals hr

theorem arranged_trees {same : Value → Value → Bool}
    (h : ∀ {s s' : Value} (r : Value), SameTree s s' → same s r = same s' r)
    {stored stored' : List Value} (hs : List.Forall₂ SameTree stored stored')
    (remote : List Value) : arranged same stored remote = arranged same stored' remote := by
  have hfirst : stored.filterMap (fun s => remote.find? (same s)) =
      stored'.filterMap fun s => remote.find? (same s) := by
    induction hs with
    | nil => rfl
    | @cons s s' _ _ hss _ ih =>
      have hsame : same s = same s' := funext fun r => h r hss
      rw [List.filterMap_cons, List.filterMap_cons, hsame, ih]
  have hany (r : Value) : stored.any (same · r) = stored'.any (same · r) := by
    clear hfirst
    induction hs with
    | nil => rfl
    | cons hss _ ih => rw [List.any_cons, List.any_cons, h r hss, ih]
  simp only [arranged, hfirst, hany]

theorem arrayItems_trees {v w : Value} (h : SameTree v w) (name : String) :
    (∃ xs ys, arrayItems name v = .ok xs ∧ arrayItems name w = .ok ys ∧
      List.Forall₂ SameTree xs ys) ∨
    (∃ e, arrayItems name v = .error e ∧ arrayItems name w = .error e) := by
  have hshape := h.shape
  cases v <;> cases w <;> simp only [Value.shape, reduceCtorEq] at hshape
  case array.array xs ys => exact Or.inl ⟨xs, ys, rfl, rfl, h.items⟩
  all_goals exact Or.inr ⟨_, rfl, rfl⟩

theorem reorder_trees (p : Property) {stored stored' : Value} (h : SameTree stored stored')
    {remote : Value} (hr : remote.isNull = false) :
    p.reorder stored remote = p.reorder stored' remote := by
  rw [reorder, reorder, h.isNull, hr]
  split
  · rfl
  · rw [if_neg Bool.false_ne_true, if_neg Bool.false_ne_true]
    split
    · rfl
    · rcases arrayItems_trees h p.name with ⟨xs, ys, hx, hy, hxy⟩ | ⟨e, hx, hy⟩
      · rw [hx, hy]
        have harranged (rs : List Value) : arranged p.sameItem xs rs = arranged p.sameItem ys rs :=
          arranged_trees (fun r hss => sameItem_trees (fun c _ => sameField_trees c) hss
            (SameTree.refl r)) hxy rs
        cases arrayItems p.name remote with
        | error e => rfl
        | ok rs => exact congrArg (fun items => Except.ok (Value.array items)) (harranged rs)
      · rw [hx, hy]

end Property

end Reconciliation
