import Mathlib.Data.List.Forall2
import Mathlib.Data.List.Nodup
import Mathlib.Data.List.Perm.Basic

/-! # Lists side by side -/
namespace Reconciliation.Lists

variable {α β : Type} {R : α → β → Prop} {xs : List α} {ys : List β}

theorem exists_left (h : List.Forall₂ R xs ys) {y : β} (hy : y ∈ ys) : ∃ x ∈ xs, R x y := by
  induction h with
  | nil => cases hy
  | cons hxy _ ih =>
    rcases List.mem_cons.mp hy with rfl | hy
    · exact ⟨_, by simp, hxy⟩
    · obtain ⟨x, hx, hR⟩ := ih hy
      exact ⟨x, List.mem_cons_of_mem _ hx, hR⟩

theorem exists_right (h : List.Forall₂ R xs ys) {x : α} (hx : x ∈ xs) : ∃ y ∈ ys, R x y := by
  induction h with
  | nil => cases hx
  | cons hxy _ ih =>
    rcases List.mem_cons.mp hx with rfl | hx
    · exact ⟨_, by simp, hxy⟩
    · obtain ⟨y, hy, hR⟩ := ih hx
      exact ⟨y, List.mem_cons_of_mem _ hy, hR⟩

theorem getElem?_left (h : List.Forall₂ R xs ys) {k : Nat} {x : α} (hx : xs[k]? = some x) :
    ∃ y, ys[k]? = some y ∧ R x y := by
  induction h generalizing k with
  | nil => cases hx
  | @cons a b _ _ hab _ ih =>
    cases k with
    | zero =>
      obtain rfl := Option.some.inj hx
      exact ⟨b, rfl, hab⟩
    | succ k => exact ih hx

theorem forall₂_of_getElem? (hl : xs.length = ys.length)
    (h : ∀ (k : Nat) x y, xs[k]? = some x → ys[k]? = some y → R x y) : List.Forall₂ R xs ys := by
  refine List.forall₂_of_length_eq_of_get hl fun i hi hi' => ?_
  exact h i _ _ (List.getElem?_eq_getElem hi) (List.getElem?_eq_getElem hi')

theorem forall₂_imp_of_mem {S : α → β → Prop} (h : List.Forall₂ R xs ys)
    (hRS : ∀ x ∈ xs, ∀ y ∈ ys, R x y → S x y) : List.Forall₂ S xs ys := by
  induction h with
  | nil => exact .nil
  | cons hxy _ ih =>
    refine .cons (hRS _ (by simp) _ (by simp) hxy) (ih fun x hx y hy => ?_)
    exact hRS x (List.mem_cons_of_mem _ hx) y (List.mem_cons_of_mem _ hy)

/-- Either all pairs are related in one way, or one of them is related in the other. -/
theorem forall₂_or {S : α → β → Prop} (h : List.Forall₂ (fun x y => R x y ∨ S x y) xs ys) :
    List.Forall₂ R xs ys ∨ ∃ (k : Nat) (x : α) (y : β), xs[k]? = some x ∧ ys[k]? = some y ∧ S x y := by
  induction h with
  | nil => exact Or.inl .nil
  | @cons x y _ _ hxy _ ih =>
    rcases hxy with hxy | hxy
    · rcases ih with ih | ⟨k, x', y', hx, hy, hS⟩
      · exact Or.inl (.cons hxy ih)
      · exact Or.inr ⟨k + 1, x', y', hx, hy, hS⟩
    · exact Or.inr ⟨0, x, y, rfl, rfl, hxy⟩

theorem exists_forall₂ (h : ∀ x ∈ xs, ∃ y, R x y) : ∃ ys, List.Forall₂ R xs ys := by
  induction xs with
  | nil => exact ⟨[], .nil⟩
  | cons x xs ih =>
    obtain ⟨y, hy⟩ := h x (by simp)
    obtain ⟨ys, hys⟩ := ih fun z hz => h z (List.mem_cons_of_mem _ hz)
    exact ⟨y :: ys, .cons hy hys⟩

/-- What comes of an item stands behind what comes of the items before it. -/
theorem getElem?_filterMap {f : α → Option β} {i : Nat} {x : α} {y : β} (hx : xs[i]? = some x)
    (hy : f x = some y) :
    (xs.filterMap f)[(xs.take i).countP fun a => (f a).isSome]? = some y := by
  induction xs generalizing i with
  | nil => cases hx
  | cons a xs ih =>
    cases i with
    | zero =>
      obtain rfl := Option.some.inj hx
      simp [hy]
    | succ i =>
      have hrest := ih hx
      cases ha : f a with
      | none => simpa [List.filterMap_cons, ha] using hrest
      | some b => simpa [List.filterMap_cons, ha] using hrest

theorem find?_of_nodup [BEq β] [LawfulBEq β] {f : α → β} (h : (xs.map f).Nodup) {x : α}
    (hx : x ∈ xs) : xs.find? (fun y => f y == f x) = some x := by
  cases hfind : xs.find? (fun y => f y == f x) with
  | none => exact absurd (beq_self_eq_true (f x)) (List.find?_eq_none.mp hfind x hx)
  | some y =>
    have hy := List.mem_of_find?_eq_some hfind
    have heq : f y = f x := by simpa using List.find?_some hfind
    exact congrArg some (List.inj_on_of_nodup_map h hy hx heq)

theorem forall₂_filterMap {f : α → Option β} (h : ∀ x ∈ xs, ∀ y, f x = some y → R x y) :
    List.Forall₂ R (xs.filter fun x => (f x).isSome) (xs.filterMap f) := by
  induction xs with
  | nil => exact .nil
  | cons x xs ih =>
    obtain ⟨hx, hxs⟩ := List.forall_mem_cons.mp h
    cases hf : f x with
    | none => simpa [hf] using ih hxs
    | some y => simpa [hf] using ⟨hx y hf, ih hxs⟩

theorem filterMap_of_forall₂ {f : α → Option β} (h : List.Forall₂ (fun x y => f x = some y) xs ys) :
    xs.filterMap f = ys := by
  induction h with
  | nil => rfl
  | cons hxy _ ih => rw [List.filterMap_cons_some hxy, ih]

theorem filter_or_perm {test test' : α → Bool} (h : ∀ x ∈ xs, test x = true → test' x = false) :
    (xs.filter test ++ xs.filter test').Perm (xs.filter fun x => test x || test' x) := by
  induction xs with
  | nil => exact .nil
  | cons x xs ih =>
    obtain ⟨hx, hxs⟩ := List.forall_mem_cons.mp h
    have hrest := ih hxs
    cases htest : test x with
    | true => simpa [htest, hx htest] using hrest.cons x
    | false =>
      cases htest' : test' x with
      | true => simpa [htest, htest'] using List.perm_middle.trans (hrest.cons x)
      | false => simpa [htest, htest'] using hrest

/-! ## Tests that at most one item passes -/

section AtMostOne

variable {test : α → Bool}

theorem filter_eq_find? (h : xs.countP test ≤ 1) : xs.filter test = (xs.find? test).toList := by
  rw [← List.head?_filter]
  rw [List.countP_eq_length_filter] at h
  cases hx : xs.filter test with
  | nil => rfl
  | cons x rest =>
    rw [hx, List.length_cons] at h
    obtain rfl := List.eq_nil_of_length_eq_zero (show rest.length = 0 by omega)
    rfl

theorem find?_perm {zs : List α} (h : xs.countP test ≤ 1) (hperm : xs.Perm zs) :
    xs.find? test = zs.find? test := by
  have hfilter := hperm.filter test
  rw [filter_eq_find? h, filter_eq_find? (hperm.countP_eq test ▸ h)] at hfilter
  cases hx : xs.find? test with
  | none =>
    rw [hx] at hfilter
    exact (Option.toList_eq_nil_iff.mp hfilter.nil_eq.symm).symm
  | some x =>
    rw [hx, Option.toList_some] at hfilter
    exact (Option.toList_eq_singleton_iff.mp (List.singleton_perm.mp hfilter).symm).symm

theorem countP_le_one_iff : xs.countP test ≤ 1 ↔ ∀ {i j : Nat} {x y : α}, xs[i]? = some x →
    xs[j]? = some y → test x = true → test y = true → i = j := by
  induction xs with
  | nil => simp
  | cons a xs ih =>
    by_cases ha : test a = true
    · have hzero : xs.countP test + 1 ≤ 1 ↔ xs.countP test = 0 := by omega
      rw [List.countP_cons_of_pos ha, hzero, List.countP_eq_zero]
      constructor
      · intro hnone i j x y hx hy htx hty
        have hfirst {k : Nat} {z : α} (hz : (a :: xs)[k]? = some z) (htz : test z = true) :
            k = 0 := by
          cases k with
          | zero => rfl
          | succ k => exact absurd htz (hnone z (List.mem_of_getElem? hz))
        exact (hfirst hx htx).trans (hfirst hy hty).symm
      · intro hone x hx htx
        obtain ⟨k, hk⟩ := List.getElem?_of_mem hx
        have hplace : 0 = k + 1 := hone rfl hk ha htx
        omega
    · rw [List.countP_cons_of_neg ha, ih]
      constructor
      · intro hone i j x y hx hy htx hty
        cases i with
        | zero => exact absurd (Option.some.inj hx ▸ htx) ha
        | succ i =>
          cases j with
          | zero => exact absurd (Option.some.inj hy ▸ hty) ha
          | succ j => exact congrArg Nat.succ (hone hx hy htx hty)
      · intro hone i j x y hx hy htx hty
        exact Nat.succ.inj (hone (i := i + 1) (j := j + 1) hx hy htx hty)

end AtMostOne

/-! ## The first of many -/

theorem findSome?_congr {f g : α → Option β} (h : ∀ x ∈ xs, f x = g x) :
    xs.findSome? f = xs.findSome? g := by
  induction xs with
  | nil => rfl
  | cons x xs ih =>
    obtain ⟨hx, hxs⟩ := List.forall_mem_cons.mp h
    rw [List.findSome?_cons, List.findSome?_cons, hx, ih hxs]

theorem findSome?_cons_or (f : α → Option β) (x : α) (xs : List α) :
    (x :: xs).findSome? f = (f x).or (xs.findSome? f) := by
  rw [List.findSome?_cons]
  cases f x <;> rfl

theorem findSome?_flatMap {γ : Type} (f : β → Option γ) (g : α → List β) (xs : List α) :
    (xs.flatMap g).findSome? f = xs.findSome? fun x => (g x).findSome? f := by
  induction xs with
  | nil => rfl
  | cons x xs ih => rw [List.flatMap_cons, List.findSome?_append, ih, findSome?_cons_or]

end Reconciliation.Lists
