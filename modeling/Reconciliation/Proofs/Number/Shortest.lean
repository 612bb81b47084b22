import Reconciliation.Proofs.Number.Decimal
import Reconciliation.Proofs.Number.Rounding

/-! # The shortest decimal reads back

A decimal with the value of a number of the format is nearest to that number, so the exact decimal
reads back, and a shorter one is taken only if it does as well.
-/
namespace Reconciliation.Decimal

open Binary64 (Fits)

theorem toRat_ofOdd (n k : ℤ) (h : n % 2 = 1) :
    (Dyadic.ofOdd n k h).toRat = n * (2 : ℚ) ^ (-k) := by
  rw [Dyadic.toRat_ofOdd_eq_mul_two_pow]

theorem smallest_bound : (10 : ℚ) ^ (-331 : ℤ) ≤ 2 ^ (-1074 : ℤ) := by
  have h : (2 : ℕ) ^ 1074 ≤ 10 ^ 331 := by decide +kernel
  rw [zpow_neg, zpow_neg]
  refine inv_anti₀ (by positivity) ?_
  exact_mod_cast h

theorem greatest_bound : (2 : ℚ) ^ (1024 : ℤ) < 10 ^ (310 : ℤ) := by
  have h : (2 : ℕ) ^ 1024 < 10 ^ 310 := by decide +kernel
  exact_mod_cast h

theorem toRat_fits_bounds {d : Dyadic} (h : Fits d) (hpos : 0 < d.toRat) :
    (10 : ℚ) ^ (-331 : ℤ) ≤ d.toRat ∧ d.toRat < (10 : ℚ) ^ (310 : ℤ) := by
  cases d with
  | zero => exact absurd hpos (by simp)
  | ofOdd n k hn =>
    obtain ⟨-, hk, hlog⟩ := h
    rw [toRat_ofOdd] at hpos ⊢
    have hp : (0 : ℚ) < 2 ^ (-k) := by positivity
    have hn0 : 0 < n := by exact_mod_cast pos_of_mul_pos_left hpos hp.le
    have hn1 : (1 : ℚ) ≤ n := by exact_mod_cast hn0
    have hlt : n < 2 ^ (n.natAbs.log2 + 1) := by
      have := Nat.lt_log2_self (n := n.natAbs)
      zify at this
      rwa [abs_of_pos hn0] at this
    constructor
    · calc (10 : ℚ) ^ (-331 : ℤ) ≤ 2 ^ (-1074 : ℤ) := smallest_bound
        _ ≤ 2 ^ (-k) := zpow_le_zpow_right₀ (by norm_num) (by omega)
        _ ≤ n * 2 ^ (-k) := le_mul_of_one_le_left hp.le hn1
    · calc (n : ℚ) * 2 ^ (-k)
          < 2 ^ (n.natAbs.log2 + 1) * 2 ^ (-k) := by
            refine mul_lt_mul_of_pos_right ?_ hp
            exact_mod_cast hlt
        _ = 2 ^ (((n.natAbs.log2 + 1 : ℕ) : ℤ) + -k) := by
            rw [zpow_add₀ (by norm_num), zpow_natCast]
        _ ≤ 2 ^ (1024 : ℤ) := zpow_le_zpow_right₀ (by norm_num) (by push_cast; omega)
        _ < (10 : ℚ) ^ (310 : ℤ) := greatest_bound

/-- A decimal with the value of a positive number of the format is nearest to that number. -/
theorem toBinary64_of_toRat {d : Decimal} {v : Dyadic} (h : Fits v) (hpos : 0 < v.toRat)
    (hd : d.toRat = v.toRat) : d.toBinary64 = .finite v h := by
  have hd0 : d.digits ≠ 0 := by
    rw [ne_eq, ← toRat_eq_zero_iff, hd]
    exact hpos.ne'
  obtain ⟨hlow, hhigh⟩ := toRat_fits_bounds h hpos
  have hl := lt_top_of_le hd0 (hd ▸ hlow)
  have hh := top_le_of_lt hd0 (hd ▸ hhigh)
  have hnot : ¬(d.digits = 0 ∨ d.top < -330) := by omega
  rw [toBinary64_eq, if_neg hnot, if_neg (by omega), hd, Binary64.nearest_toRat h]

theorem toRat_exact {v : Dyadic} (hpos : 0 < v.toRat) : (exact v.toRat).toRat = v.toRat := by
  cases v with
  | zero => exact absurd hpos (by simp)
  | ofOdd n k hn =>
    have hn0 : 0 < n := by
      rw [toRat_ofOdd] at hpos
      exact_mod_cast pos_of_mul_pos_left hpos (by positivity : (0 : ℚ) ≤ 2 ^ (-k))
    have habs : ((n.natAbs : ℕ) : ℚ) = n := by
      rw [← Int.cast_natCast, Int.natAbs_of_nonneg hn0.le]
    have hten : (10 : ℚ) = 2 * 5 := by norm_num
    rw [toRat_eq, exact, Binary64.num_ofOdd, Binary64.den_ofOdd, Nat.log2_two_pow, toRat_ofOdd,
      Int.natAbs_mul, Int.natAbs_pow]
    push_cast
    rw [habs, hten, mul_zpow, zpow_neg 5, zpow_natCast]
    have hexp : -k = ((-k).toNat : ℤ) + -(k.toNat : ℤ) := by omega
    conv_rhs => rw [hexp, zpow_add₀ (by norm_num), zpow_natCast]
    field_simp

theorem withDigits?_reads {b : Binary64} {x : ℚ} {n : ℕ} {d : Decimal}
    (h : withDigits? b x n = some d) : d.toBinary64 = b := by
  simp only [withDigits?] at h
  split at h
  · rename_i hlow hhigh
    obtain rfl := Option.some.inj h
    rw [nearer]
    split
    · exact eq_of_beq hlow
    · exact eq_of_beq hhigh
  · rename_i hlow _
    obtain rfl := Option.some.inj h
    exact eq_of_beq hlow
  · rename_i _ hhigh
    obtain rfl := Option.some.inj h
    exact eq_of_beq hhigh
  · cases h

theorem shortest_reads {v : Dyadic} (h : Fits v) (hpos : 0 < v.toRat) :
    (shortest (.finite v h) v.toRat).toBinary64 = .finite v h := by
  rw [shortest]
  cases hs : (List.range 17).findSome? fun n => withDigits? (.finite v h) v.toRat (n + 1) with
  | some d =>
    obtain ⟨n, -, hd⟩ := List.exists_of_findSome?_eq_some hs
    exact withDigits?_reads hd
  | none => exact toBinary64_of_toRat h hpos (toRat_exact hpos)

end Reconciliation.Decimal
