import Mathlib.Data.Nat.Init
import Mathlib.Tactic.Positivity
import Mathlib.Tactic.Ring
import Reconciliation.Number.Binary64

/-! # Numbers of the format are nearest to themselves -/
namespace Reconciliation.Binary64

theorem log2_mul_two_pow {a : ℕ} (h : a ≠ 0) (i : ℕ) : (a * 2 ^ i).log2 = a.log2 + i := by
  refine (Nat.log2_eq_iff (by positivity)).mpr ⟨?_, ?_⟩
  · rw [Nat.pow_add]
    exact Nat.mul_le_mul_right _ (Nat.log2_self_le h)
  · rw [show a.log2 + i + 1 = a.log2 + 1 + i by omega, Nat.pow_add]
    exact Nat.mul_lt_mul_of_pos_right Nat.lt_log2_self (by positivity)

theorem lastPlace_eq {a : ℕ} (h : a ≠ 0) (i j : ℕ) :
    lastPlace (a * 2 ^ i) (2 ^ j) = max ((a.log2 : ℤ) + i - j - 52) (-1074) := by
  have hg : (((a * 2 ^ i).log2 : ℕ) : ℤ) - ((2 ^ j).log2 : ℕ) = a.log2 + i - j := by
    rw [log2_mul_two_pow h, Nat.log2_two_pow]
    omega
  have hle : 2 ^ j * 2 ^ ((a.log2 : ℤ) + i - j).toNat ≤
      a * 2 ^ i * 2 ^ (-((a.log2 : ℤ) + i - j)).toNat := by
    rw [← Nat.pow_add, Nat.mul_assoc, ← Nat.pow_add]
    calc 2 ^ (j + ((a.log2 : ℤ) + i - j).toNat)
        = 2 ^ a.log2 * 2 ^ (i + (-((a.log2 : ℤ) + i - j)).toNat) := by
          rw [← Nat.pow_add]
          congr 1
          omega
      _ ≤ _ := Nat.mul_le_mul_right _ (Nat.log2_self_le h)
  simp only [lastPlace, hg, hle, if_true]

theorem roundDiv_mul {b : ℕ} (h : 0 < b) (c : ℕ) : roundDiv (b * c) b = c := by
  have h0 : ¬0 = b := by omega
  simp [roundDiv, Nat.mul_div_cancel_left c h, h0]

theorem num_ofOdd (n k : ℤ) (h : n % 2 = 1) :
    (Dyadic.ofOdd n k h).toRat.num = n * 2 ^ (-k).toNat := by
  cases k with
  | ofNat j => simp [Dyadic.toRat]
  | negSucc j => exact Rat.num_intCast _

theorem den_ofOdd (n k : ℤ) (h : n % 2 = 1) :
    (Dyadic.ofOdd n k h).toRat.den = 2 ^ k.toNat := by
  cases k with
  | ofNat j => simp [Dyadic.toRat]
  | negSucc j => exact Rat.den_intCast _

/-- A place that a number reaches holds the number in whole steps. -/
theorem ofIntWithPrec_steps {n k place : ℤ} (h : n % 2 = 1) (hp : place ≤ -k) :
    Dyadic.ofIntWithPrec (n * 2 ^ (-k - place).toNat) (-place) = .ofOdd n k h := by
  obtain ⟨e, he⟩ := Int.eq_ofNat_of_zero_le (show 0 ≤ -k - place by omega)
  have hk : -place = k + e := by omega
  rw [he, Int.toNat_natCast, hk, ← Int.shiftLeft_eq, Dyadic.ofIntWithPrec_shiftLeft_add,
    Dyadic.ofOdd_eq_ofIntWithPrec]

/-- A dyadic number whose odd part and place fit is its own nearest number. -/
theorem nearest_toRat {d : Dyadic} (h : Fits d) : nearest d.toRat = .finite d h := by
  cases d with
  | zero => rfl
  | ofOdd n k hn =>
    obtain ⟨hbits, hk, -⟩ := id h
    have hn0 : n ≠ 0 := by rintro rfl; simp at hn
    have ha : n.natAbs ≠ 0 := by omega
    have hlog : n.natAbs.log2 < 53 := (Nat.log2_lt ha).mpr hbits
    have hnum : (Dyadic.ofOdd n k hn).toRat.num.natAbs = n.natAbs * 2 ^ (-k).toNat := by
      rw [num_ofOdd, Int.natAbs_mul, Int.natAbs_pow]
      rfl
    have hsign : (Dyadic.ofOdd n k hn).toRat.num.sign = n.sign := by
      have hpos : (0 : ℤ) < 2 ^ (-k).toNat := by positivity
      rw [num_ofOdd, Int.sign_mul, Int.sign_eq_one_of_pos hpos, Int.mul_one]
    set place := lastPlace (n.natAbs * 2 ^ (-k).toNat) (2 ^ k.toNat) with hplace
    have hp : place ≤ -k := by
      rw [hplace, lastPlace_eq ha]
      omega
    have hq : roundDiv (n.natAbs * 2 ^ (-k).toNat * 2 ^ (-place).toNat)
        (2 ^ k.toNat * 2 ^ place.toNat) = n.natAbs * 2 ^ (-k - place).toNat := by
      rw [show n.natAbs * 2 ^ (-k).toNat * 2 ^ (-place).toNat =
          2 ^ k.toNat * 2 ^ place.toNat * (n.natAbs * 2 ^ (-k - place).toNat) by
        rw [Nat.mul_assoc, ← Nat.pow_add, ← Nat.pow_add, Nat.mul_left_comm, ← Nat.pow_add]
        congr 2
        omega]
      exact roundDiv_mul (by positivity) _
    have hd : Dyadic.ofIntWithPrec (n.sign * (n.natAbs * 2 ^ (-k - place).toNat : ℕ)) (-place) =
        .ofOdd n k hn := by
      rw [← ofIntWithPrec_steps hn hp, Int.natCast_mul, ← Int.mul_assoc, Int.sign_mul_natAbs]
      push_cast
      rfl
    have hq0 : n.natAbs * 2 ^ (-k - place).toNat ≠ 0 := by positivity
    simp only [nearest, hnum, den_ofOdd, hsign, ← hplace, hq, hq0, if_false, hd, dif_pos h]

theorem ofInt?_of_fits {n : ℤ} (h : Fits (Dyadic.ofInt n)) :
    ofInt? n = some (.finite (Dyadic.ofInt n) h) := by
  have hrat : (n : ℚ) = (Dyadic.ofInt n).toRat := (Dyadic.toRat_intCast n).symm
  unfold ofInt?
  rw [hrat, nearest_toRat h]

end Reconciliation.Binary64
