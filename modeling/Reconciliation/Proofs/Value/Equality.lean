import Mathlib.Data.List.Forall2
import Reconciliation.Proofs.Value.Order

/-! # Equality of values is an equivalence on stored trees

Two scalars are equal if they mean the same: the same truth value, text, infinity or rational
number. Whatever holds of equality on scalars follows from that; on trees it follows by induction.
-/
namespace Reconciliation.Value

attribute [local simp] equals equalItems equalEntries

inductive Meaning
  | bool (b : Bool)
  | number (d : Dyadic)
  | infinity (negative : Bool)
  | string (s : String)
deriving DecidableEq

/-- What a value stands for, if it is a scalar that is equal to itself. -/
def meaning? : Value → Option Meaning
  | .bool b => some (.bool b)
  | .int n => some (.number (Dyadic.ofInt n))
  | .float (.infinity negative) => some (.infinity negative)
  | .float x => x.value?.map .number
  | .string s => some (.string s)
  | _ => none

theorem meaning_float_number {x : Binary64} {d : Dyadic} :
    meaning? (.float x) = some (.number d) ↔ x.value? = some d := by
  cases x <;> simp [meaning?, Binary64.value?]

theorem numericallyEqual_iff {x y : Binary64} :
    x.numericallyEqual y = true ↔
      ∃ m, meaning? (.float x) = some m ∧ meaning? (.float y) = some m := by
  cases x <;> cases y <;> simp [Binary64.numericallyEqual, meaning?, Binary64.value?] <;>
    exact ⟨Eq.symm, Eq.symm⟩

theorem isNumber_iff {n : Int} {x : Binary64} :
    isNumber n x = true ↔ ∃ m, meaning? (.int n) = some m ∧ meaning? (.float x) = some m := by
  simp only [isNumber, beq_iff_eq, meaning?, Option.some.injEq, exists_eq_left']
  exact meaning_float_number.symm

theorem equals_scalar {v w : Value} (hv : v.shape = .scalar) (hw : w.shape = .scalar) :
    v.equals w = true ↔ ∃ m, v.meaning? = some m ∧ w.meaning? = some m := by
  cases v <;> cases w <;> simp only [shape, reduceCtorEq] at hv hw
  case int.float n x => exact isNumber_iff
  case float.int x n => rw [equals, isNumber_iff]; simp only [and_comm]
  case float.float x y => exact numericallyEqual_iff
  case float.bool x b => cases x <;> simp [equals, meaning?]
  case float.string x s => cases x <;> simp [equals, meaning?]
  case bool.float b x => cases x <;> simp [equals, meaning?]
  case string.float s x => cases x <;> simp [equals, meaning?]
  case int.int m n =>
    have h : Dyadic.ofInt n = Dyadic.ofInt m ↔ m = n := by
      rw [← Dyadic.toRat_inj]
      change (n : Dyadic).toRat = (m : Dyadic).toRat ↔ m = n
      rw [Dyadic.toRat_intCast, Dyadic.toRat_intCast, Rat.intCast_inj, eq_comm]
    simp [equals, meaning?, h]
  all_goals simp [equals, meaning?]
  all_goals exact ⟨Eq.symm, Eq.symm⟩

theorem sameKeys_iff {es fs : Entries Value} :
    sameKeys es fs = true ↔ ∀ k, k ∈ es.keys ↔ k ∈ fs.keys := by
  simp only [sameKeys, Bool.and_eq_true, List.all_eq_true, Entries.has_iff]
  exact ⟨fun h k => ⟨h.1 k, h.2 k⟩, fun h => ⟨fun k => (h k).mp, fun k => (h k).mpr⟩⟩

theorem equalItems_iff {xs ys : List Value} :
    equalItems xs ys = true ↔ List.Forall₂ (fun x y => x.equals y = true) xs ys := by
  induction xs generalizing ys with
  | nil => cases ys <;> simp [equalItems]
  | cons x xs ih => cases ys <;> simp [equalItems, ih]

theorem equalEntries_iff {es : List (String × Value)} {fs : Entries Value} :
    equalEntries es fs = true ↔ ∀ e ∈ es, ∃ w, fs.get? e.1 = some w ∧ e.2.equals w = true := by
  induction es with
  | nil => simp [equalEntries]
  | cons e es ih =>
    obtain ⟨k, v⟩ := e
    simp [equalEntries, ih, Option.any_eq_true]

theorem equals_array {xs ys : List Value} :
    equals (.array xs) (.array ys) = true ↔ List.Forall₂ (fun x y => x.equals y = true) xs ys := by
  rw [equals, equalItems_iff]

theorem equals_object {es fs : Entries Value} :
    equals (.object es) (.object fs) = true ↔ (∀ k, k ∈ es.keys ↔ k ∈ fs.keys) ∧
      ∀ e ∈ es, ∃ w, fs.get? e.1 = some w ∧ e.2.equals w = true := by
  rw [equals, Bool.and_eq_true, sameKeys_iff, equalEntries_iff]

theorem equals_shape {v w : Value} (h : v.equals w = true) : v.shape = w.shape := by
  cases v <;> cases w <;> first | rfl | simp [equals] at h

theorem isNull_iff {v : Value} : v.isNull = true ↔ v = .null := by
  cases v <;> simp [isNull]

theorem isNull_of_equals {v w : Value} (h : v.equals w = true) : v.isNull = w.isNull := by
  cases v <;> cases w <;> first | rfl | simp [equals] at h

/-! ## The order of entries -/

@[simp] theorem equals_ordered_left (v w : Value) : v.ordered.equals w = v.equals w := by
  induction v generalizing w with
  | array xs ih =>
    cases w with
    | array ys =>
      rw [ordered_array, Bool.eq_iff_iff, equals_array, equals_array, List.forall₂_map_left_iff]
      induction xs generalizing ys with
      | nil => simp
      | cons x xs ihxs =>
        cases ys with
        | nil => simp
        | cons y ys =>
          rw [List.forall₂_cons, List.forall₂_cons, ih x (by simp),
            ihxs (fun z hz => ih z (by simp [hz]))]
    | _ => simp [equals]
  | object es ih =>
    cases w with
    | object fs =>
      rw [ordered_object, Bool.eq_iff_iff, equals_object, equals_object]
      refine and_congr (forall_congr' fun k => ?_) ?_
      · rw [(Entries.keys_sorted_perm _).mem_iff, Entries.keys_mapValues]
      · constructor
        · intro h e he
          obtain ⟨w, hw, hv⟩ := h (e.1, e.2.ordered)
            (Entries.mem_sorted.mpr (List.mem_map_of_mem (f := fun e => (e.1, ordered e.2)) he))
          exact ⟨w, hw, (ih e he w) ▸ hv⟩
        · intro h e he
          obtain ⟨f, hf, rfl⟩ := List.mem_map.mp (Entries.mem_sorted.mp he)
          obtain ⟨w, hw, hv⟩ := h f hf
          exact ⟨w, hw, (ih f hf w).symm ▸ hv⟩
    | _ => simp [equals]
  | _ => rfl

@[simp] theorem equals_ordered_right (v w : Value) : v.equals w.ordered = v.equals w := by
  induction v generalizing w with
  | array xs ih =>
    cases w with
    | array ys =>
      rw [ordered_array, Bool.eq_iff_iff, equals_array, equals_array, List.forall₂_map_right_iff]
      induction xs generalizing ys with
      | nil => simp
      | cons x xs ihxs =>
        cases ys with
        | nil => simp
        | cons y ys =>
          rw [List.forall₂_cons, List.forall₂_cons, ih x (by simp),
            ihxs (fun z hz => ih z (by simp [hz]))]
    | _ => simp [equals]
  | object es ih =>
    cases w with
    | object fs =>
      rw [ordered_object, Bool.eq_iff_iff, equals_object, equals_object]
      refine and_congr (forall_congr' fun k => ?_) (forall₂_congr fun e he => ?_)
      · rw [(Entries.keys_sorted_perm _).mem_iff, Entries.keys_mapValues]
      · rw [get?_ordered]
        cases Entries.get? fs e.1 with
        | none => simp
        | some w => simp [ih e he w]
    | _ => simp [equals]
  | _ => cases w <;> simp [equals]

theorem SameTree.equals {v v' w w' : Value} (hv : SameTree v v') (hw : SameTree w w') :
    v.equals w = v'.equals w' := by
  rw [← equals_ordered_left, ← equals_ordered_right, hv, hw, equals_ordered_left,
    equals_ordered_right]

/-! ## An equivalence -/

theorem equals_refl {v : Value} (hk : v.keysDistinct = true) (hn : v.nanFree = true) :
    v.equals v = true := by
  induction v with
  | float x =>
    rw [equals_scalar rfl rfl]
    cases x <;> first | exact ⟨_, rfl, rfl⟩ | simp [nanFree, everywhere, isNotNaN, Binary64.isNaN] at hn
  | array xs ih =>
    rw [keysDistinct_array] at hk
    rw [nanFree_array] at hn
    rw [equals_array, List.forall₂_same]
    exact fun x hx => ih x hx (hk x hx) (hn x hx)
  | object es ih =>
    rw [keysDistinct_object] at hk
    rw [nanFree_object] at hn
    rw [equals_object]
    refine ⟨fun _ => Iff.rfl, fun e he => ⟨e.2, Entries.get?_of_mem hk.1 he, ?_⟩⟩
    exact ih e he (hk.2 e he) (hn e he)
  | _ => simp [equals]

theorem equals_symm {v w : Value} (hk : w.keysDistinct = true) (h : v.equals w = true) :
    w.equals v = true := by
  induction v generalizing w with
  | null => cases w <;> first | rfl | simp [equals] at h
  | array xs ih =>
    cases w with
    | array ys =>
      rw [keysDistinct_array] at hk
      rw [equals_array] at h ⊢
      induction h with
      | nil => exact .nil
      | cons hxy _ ihxs =>
        exact .cons (ih _ (by simp) (hk _ (by simp)) hxy)
          (ihxs (fun z hz => ih z (by simp [hz])) fun z hz => hk z (by simp [hz]))
    | _ => simp [equals] at h
  | object es ih =>
    cases w with
    | object fs =>
      rw [keysDistinct_object] at hk
      rw [equals_object] at h ⊢
      refine ⟨fun k => (h.1 k).symm, fun f hf => ?_⟩
      have hm : f.1 ∈ Entries.keys es := (h.1 f.1).mpr (List.mem_map_of_mem hf)
      cases hv : Entries.get? es f.1 with
      | none => exact absurd hm ((Entries.get?_eq_none_iff _ _).mp hv)
      | some v =>
        obtain ⟨w, hw, hvw⟩ := h.2 _ (Entries.mem_of_get? hv)
        rw [Entries.get?_of_mem hk.1 hf, Option.some.injEq] at hw
        exact ⟨v, rfl, ih _ (Entries.mem_of_get? hv) (hk.2 f hf) (hw ▸ hvw)⟩
    | _ => simp [equals] at h
  | _ =>
    have hw : w.shape = .scalar := (equals_shape h).symm
    rw [equals_scalar rfl hw] at h
    obtain ⟨m, hm, hm'⟩ := h
    exact (equals_scalar hw rfl).mpr ⟨m, hm', hm⟩

theorem equals_trans {u v w : Value} (h : u.equals v = true) (k : v.equals w = true) :
    u.equals w = true := by
  induction u generalizing v w with
  | null =>
    cases v <;> simp [equals] at h
    exact k
  | array xs ih =>
    cases v with
    | array ys =>
      cases w with
      | array zs =>
        rw [equals_array] at h k ⊢
        induction h generalizing zs with
        | nil => exact k
        | cons hxy _ ihxs =>
          cases k with
          | cons hyz htl =>
            exact .cons (ih _ (by simp) hxy hyz) (ihxs (fun z hz => ih z (by simp [hz])) _ htl)
      | _ => simp [equals] at k
    | _ => simp [equals] at h
  | object es ih =>
    cases v with
    | object fs =>
      cases w with
      | object gs =>
        rw [equals_object] at h k ⊢
        refine ⟨fun l => (h.1 l).trans (k.1 l), fun e he => ?_⟩
        obtain ⟨v, hv, hev⟩ := h.2 e he
        obtain ⟨w, hw, hvw⟩ := k.2 _ (Entries.mem_of_get? hv)
        exact ⟨w, hw, ih e he hev hvw⟩
      | _ => simp [equals] at k
    | _ => simp [equals] at h
  | _ =>
    have hv : v.shape = .scalar := (equals_shape h).symm
    have hw : w.shape = .scalar := (equals_shape k).symm.trans hv
    rw [equals_scalar rfl hv] at h
    rw [equals_scalar hv hw] at k
    obtain ⟨m, hm, hm'⟩ := h
    obtain ⟨n, hn, hn'⟩ := k
    rw [hm', Option.some.injEq] at hn
    exact (equals_scalar rfl hw).mpr ⟨m, hm, hn ▸ hn'⟩

end Reconciliation.Value
