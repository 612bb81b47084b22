import Reconciliation.Proofs.Value.Order

/-! # Deciding whether two value trees are one -/
namespace Reconciliation.Value

mutual

def identical : Value → Value → Bool
  | .null, .null => true
  | .bool a, .bool b => a == b
  | .int m, .int n => m == n
  | .float x, .float y => x == y
  | .string s, .string t => s == t
  | .array xs, .array ys => identicalItems xs ys
  | .object es, .object fs => identicalEntries es fs
  | _, _ => false

def identicalItems : List Value → List Value → Bool
  | [], [] => true
  | x :: xs, y :: ys => identical x y && identicalItems xs ys
  | _, _ => false

def identicalEntries : List (String × Value) → List (String × Value) → Bool
  | [], [] => true
  | (k, v) :: es, (l, w) :: fs => k == l && identical v w && identicalEntries es fs
  | _, _ => false

end

theorem identicalItems_iff {xs ys : List Value}
    (h : ∀ x ∈ xs, ∀ y, x.identical y = true ↔ x = y) : identicalItems xs ys = true ↔ xs = ys := by
  induction xs generalizing ys with
  | nil => cases ys <;> simp [identicalItems]
  | cons x xs ih =>
    cases ys with
    | nil => simp [identicalItems]
    | cons y ys =>
      rw [identicalItems, Bool.and_eq_true, h x (by simp), ih fun z hz => h z (by simp [hz]),
        List.cons.injEq]

theorem identicalEntries_iff {es fs : List (String × Value)}
    (h : ∀ e ∈ es, ∀ w, e.2.identical w = true ↔ e.2 = w) :
    identicalEntries es fs = true ↔ es = fs := by
  induction es generalizing fs with
  | nil => cases fs <;> simp [identicalEntries]
  | cons e es ih =>
    obtain ⟨k, v⟩ := e
    cases fs with
    | nil => simp [identicalEntries]
    | cons f fs =>
      obtain ⟨l, w⟩ := f
      rw [identicalEntries, Bool.and_eq_true, Bool.and_eq_true, beq_iff_eq, h (k, v) (by simp),
        ih fun z hz => h z (by simp [hz]), List.cons.injEq, Prod.mk.injEq]

theorem identical_iff {v w : Value} : v.identical w = true ↔ v = w := by
  induction v generalizing w with
  | array xs ih =>
    cases w with
    | array ys => rw [identical, identicalItems_iff (fun x hx y => ih x hx), Value.array.injEq]
    | _ => simp [identical]
  | object es ih =>
    cases w with
    | object fs => rw [identical, identicalEntries_iff (fun e he w => ih e he), Value.object.injEq]
    | _ => simp [identical]
  | _ => cases w <;> simp [identical]

instance : DecidableEq Value := fun _ _ => decidable_of_iff _ identical_iff

end Reconciliation.Value
