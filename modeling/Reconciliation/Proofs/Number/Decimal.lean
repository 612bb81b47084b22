import Mathlib.Algebra.Order.Field.Power
import Mathlib.Algebra.Order.Field.Rat
import Mathlib.Data.Nat.Cast.Order.Field
import Mathlib.Tactic.Linarith
import Mathlib.Tactic.Positivity
import Mathlib.Tactic.FieldSimp
import Mathlib.Tactic.Ring
import Reconciliation.Number.Decimal

/-! # The value of a decimal

Two decimals of one value are nearest to one binary number, however many zeros they end in.
-/
namespace Reconciliation.Decimal

theorem toRat_eq (d : Decimal) : d.toRat = d.digits * (10 : ℚ) ^ d.exponent := by
  obtain ⟨n, e⟩ := d
  simp only [toRat]
  split
  · rename_i h
    obtain ⟨k, rfl⟩ := Int.eq_ofNat_of_zero_le h
    simp
  · rename_i h
    obtain ⟨k, hk⟩ : ∃ k : ℕ, e = -(k : ℤ) := ⟨e.natAbs, by omega⟩
    subst hk
    rw [Rat.mkRat_eq_div]
    simp [div_eq_mul_inv]

theorem toRat_eq_zero_iff (d : Decimal) : d.toRat = 0 ↔ d.digits = 0 := by
  rw [toRat_eq]
  simp [zpow_ne_zero]

theorem length_bounds {n : ℕ} (h : n ≠ 0) : 10 ^ (length n - 1) ≤ n ∧ n < 10 ^ length n := by
  have hl : length n = (Nat.toDigits 10 n).length := if_neg h
  have hp : 0 < (Nat.toDigits 10 n).length := Nat.length_toDigits_pos
  rw [hl]
  refine ⟨?_, (Nat.length_toDigits_le_iff (by decide) hp).mp le_rfl⟩
  by_cases h1 : (Nat.toDigits 10 n).length = 1
  · rw [h1]
    omega
  · by_contra hlt
    have := (Nat.length_toDigits_le_iff (b := 10) (n := n) (by decide)
      (k := (Nat.toDigits 10 n).length - 1) (by omega)).mpr (by omega)
    omega

/-- The least power of ten above the value. -/
def top (d : Decimal) : ℤ := length d.digits + d.exponent

theorem toRat_bounds {d : Decimal} (h : d.digits ≠ 0) :
    (10 : ℚ) ^ (d.top - 1) ≤ d.toRat ∧ d.toRat < (10 : ℚ) ^ d.top := by
  obtain ⟨hlow, hhigh⟩ := length_bounds h
  have hpos : (0 : ℚ) < 10 ^ d.exponent := by positivity
  have hlen : 1 ≤ length d.digits := by
    by_contra hz
    have : length d.digits = 0 := by omega
    rw [this] at hhigh
    omega
  rw [toRat_eq]
  constructor
  · have he : d.top - 1 = ((length d.digits - 1 : ℕ) : ℤ) + d.exponent := by
      unfold top
      omega
    rw [he, zpow_add₀ (by norm_num), zpow_natCast]
    exact mul_le_mul_of_nonneg_right (by exact_mod_cast hlow) hpos.le
  · rw [top, zpow_add₀ (by norm_num), zpow_natCast]
    exact mul_lt_mul_of_pos_right (by exact_mod_cast hhigh) hpos

theorem top_le_of_lt {d : Decimal} (h : d.digits ≠ 0) {k : ℤ} (hk : d.toRat < (10 : ℚ) ^ k) :
    d.top ≤ k := by
  have := (zpow_lt_zpow_iff_right₀ (by norm_num : (1 : ℚ) < 10)).mp
    ((toRat_bounds h).1.trans_lt hk)
  omega

theorem lt_top_of_le {d : Decimal} (h : d.digits ≠ 0) {k : ℤ} (hk : (10 : ℚ) ^ k ≤ d.toRat) :
    k < d.top :=
  (zpow_lt_zpow_iff_right₀ (by norm_num : (1 : ℚ) < 10)).mp (hk.trans_lt (toRat_bounds h).2)

theorem top_congr {d e : Decimal} (h : d.toRat = e.toRat) (hd : d.digits ≠ 0)
    (he : e.digits ≠ 0) : d.top = e.top :=
  le_antisymm (top_le_of_lt hd (h ▸ (toRat_bounds he).2))
    (top_le_of_lt he (h.symm ▸ (toRat_bounds hd).2))

theorem toBinary64_eq (d : Decimal) : d.toBinary64 =
    if d.digits = 0 ∨ d.top < -330 then .zero
    else if 310 < d.top then .infinity false
    else .nearest d.toRat := rfl

/-- The nearest binary number depends on the value alone. -/
theorem toBinary64_congr {d e : Decimal} (h : d.toRat = e.toRat) :
    d.toBinary64 = e.toBinary64 := by
  have hz : d.digits = 0 ↔ e.digits = 0 := by
    rw [← toRat_eq_zero_iff, h, toRat_eq_zero_iff]
  rw [toBinary64_eq, toBinary64_eq]
  by_cases hd : d.digits = 0
  · rw [if_pos (Or.inl hd), if_pos (Or.inl (hz.mp hd))]
  · rw [top_congr h hd fun he => hd (hz.mpr he), h]
    simp only [hz]

end Reconciliation.Decimal
