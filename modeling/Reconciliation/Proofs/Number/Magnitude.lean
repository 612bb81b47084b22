import Mathlib.Data.Nat.Factorization.Basic
import Reconciliation.Proofs.Number.Rounding

/-! # Which integers are near to a number

A positive integer is rounded to a significand of 53 bits. It is near to a number if the significand
in its place is not too large, and then so is every smaller one.
-/
namespace Reconciliation.Binary64

/-- A significand in its place is a number of the format, unless it is too large. -/
theorem fits_ofIntWithPrec {q : ℕ} (h : q ≠ 0) (hq : q ≤ 2 ^ 53) {place : ℤ}
    (hp : -1074 ≤ place) :
    Fits (Dyadic.ofIntWithPrec q (-place)) ↔ (q.log2 : ℤ) + place < 1024 := by
  obtain ⟨e, n, hodd, rfl⟩ := Nat.exists_eq_two_pow_mul_odd h
  have hn : ((n : ℕ) : ℤ) % 2 = 1 := by
    have := Nat.odd_iff.mp hodd
    omega
  have hn0 : n ≠ 0 := by rintro rfl; simp at hn
  have hsteps := @ofIntWithPrec_steps n (-place - e) place hn (by omega)
  rw [show (-(-place - (e : ℤ)) - place).toNat = e by omega] at hsteps
  have hcast : ((2 ^ e * n : ℕ) : ℤ) = (n : ℤ) * 2 ^ e := by
    push_cast
    ring
  have hlog : (2 ^ e * n).log2 = n.log2 + e := by
    rw [Nat.mul_comm, log2_mul_two_pow hn0]
  have hlt : n < 2 ^ 53 := by
    rcases Nat.eq_zero_or_pos e with rfl | he
    · have hne : n ≠ 2 ^ 53 := by
        rintro rfl
        simp at hn
      omega
    · have : 2 ^ 1 ≤ 2 ^ e := Nat.pow_le_pow_right (by omega) he
      have := Nat.mul_le_mul_right n this
      omega
  rw [hcast, hsteps, hlog]
  simp only [Fits, Int.natAbs_natCast]
  constructor
  · rintro ⟨-, -, hlog⟩
    omega
  · intro hlog
    exact ⟨hlt, by omega, by omega⟩

theorem log2_le_log2 {a b : ℕ} (ha : a ≠ 0) (h : a ≤ b) : a.log2 ≤ b.log2 :=
  (Nat.le_log2 (by omega)).mpr ((Nat.log2_self_le ha).trans h)

theorem div_le_roundDiv (num den : ℕ) : num / den ≤ roundDiv num den := by
  rw [roundDiv]
  split <;> omega

theorem roundDiv_le_succ (num den : ℕ) : roundDiv num den ≤ num / den + 1 := by
  rw [roundDiv]
  split <;> omega

theorem roundDiv_mono {a b : ℕ} (den : ℕ) (h : a ≤ b) : roundDiv a den ≤ roundDiv b den := by
  have hquot : a / den ≤ b / den := Nat.div_le_div_right h
  rcases Nat.lt_or_eq_of_le hquot with hlt | heq
  · exact (roundDiv_le_succ a den).trans (hlt.trans_le (div_le_roundDiv b den))
  · have ha := Nat.div_add_mod a den
    have hb := Nat.div_add_mod b den
    have hrest : a % den ≤ b % den := by
      rw [heq] at ha
      omega
    simp only [roundDiv, heq]
    split <;> split <;> omega

/-- The significand of the number nearest to a positive integer. -/
def significand (a : ℕ) : ℕ := roundDiv (a * 2 ^ (52 - a.log2)) (2 ^ (a.log2 - 52))

theorem significand_bounds {a : ℕ} (h : a ≠ 0) : 2 ^ 52 ≤ significand a ∧ significand a ≤ 2 ^ 53 := by
  have hlow := Nat.log2_self_le h
  have hhigh : a < 2 ^ (a.log2 + 1) := Nat.lt_log2_self
  have hpos : 0 < 2 ^ (a.log2 - 52) := by positivity
  constructor
  · refine le_trans ?_ (div_le_roundDiv _ _)
    rw [Nat.le_div_iff_mul_le hpos, ← Nat.pow_add]
    calc 2 ^ (52 + (a.log2 - 52)) = 2 ^ a.log2 * 2 ^ (52 - a.log2) := by
          rw [← Nat.pow_add]
          congr 1
          omega
      _ ≤ _ := Nat.mul_le_mul_right _ hlow
  · refine le_trans (roundDiv_le_succ _ _) ?_
    rw [Nat.succ_le_iff, Nat.div_lt_iff_lt_mul hpos, ← Nat.pow_add]
    calc a * 2 ^ (52 - a.log2) < 2 ^ (a.log2 + 1) * 2 ^ (52 - a.log2) :=
          Nat.mul_lt_mul_of_pos_right hhigh (by positivity)
      _ = _ := by
          rw [← Nat.pow_add]
          congr 1
          omega

theorem ofInt?_isSome_iff_fits {n place : ℤ} {q : ℕ} (hplace : lastPlace n.natAbs 1 = place)
    (hq : roundDiv (n.natAbs * 2 ^ (-place).toNat) (1 * 2 ^ place.toNat) = q) :
    (ofInt? n).isSome = true ↔ Fits (Dyadic.ofIntWithPrec (n.sign * q) (-place)) := by
  have hnum : ((n : ℚ).num.natAbs) = n.natAbs := by rw [Rat.num_intCast]
  have hsign : (n : ℚ).num.sign = n.sign := by rw [Rat.num_intCast]
  unfold ofInt?
  simp only [nearest, hnum, hsign, Rat.den_intCast, hplace, hq]
  by_cases h0 : q = 0
  · have hfits : Fits (Dyadic.ofIntWithPrec (n.sign * q) (-place)) := by
      rw [h0, Nat.cast_zero, Int.mul_zero, Dyadic.ofIntWithPrec_zero]
      trivial
    rw [if_pos h0]
    refine ⟨fun _ => hfits, fun _ => ?_⟩
    by_cases hneg : (n : ℚ).num < 0
    · rw [if_pos hneg]
      rfl
    · rw [if_neg hneg]
      rfl
  · rw [if_neg h0]
    by_cases hf : Fits (Dyadic.ofIntWithPrec (n.sign * q) (-place))
    · rw [dif_pos hf]
      exact ⟨fun _ => hf, fun _ => rfl⟩
    · rw [dif_neg hf]
      constructor
      · intro h
        cases h
      · exact fun h => absurd h hf

theorem ofInt?_isSome_iff {a : ℕ} (h : a ≠ 0) :
    (ofInt? a).isSome = true ↔ (significand a).log2 + a.log2 < 1076 := by
  have hbounds := significand_bounds h
  have hq0 : significand a ≠ 0 := by
    have : 0 < 2 ^ 52 := by decide
    omega
  have hplace : lastPlace a 1 = (a.log2 : ℤ) - 52 := by
    have := lastPlace_eq h 0 0
    simp only [Nat.pow_zero, Nat.mul_one] at this
    rw [this]
    omega
  have hq : roundDiv (a * 2 ^ (-((a.log2 : ℤ) - 52)).toNat) (1 * 2 ^ ((a.log2 : ℤ) - 52).toNat) =
      significand a := by
    rw [significand, Nat.one_mul]
    congr 3 <;> omega
  have hsign : (a : ℤ).sign = 1 := Int.sign_eq_one_of_pos (by omega)
  have hfits := @fits_ofIntWithPrec _ hq0 hbounds.2 ((a.log2 : ℤ) - 52) (by omega)
  rw [@ofInt?_isSome_iff_fits a _ _ hplace hq, hsign, Int.one_mul, hfits]
  omega

/-- Below an integer that is near to a number stand only such integers. -/
theorem ofInt?_isSome_mono {a b : ℕ} (hab : a ≤ b) (h : (ofInt? b).isSome = true) :
    (ofInt? a).isSome = true := by
  rcases Nat.eq_zero_or_pos a with rfl | ha
  · rfl
  have ha0 : a ≠ 0 := by omega
  have hb0 : b ≠ 0 := by omega
  rw [ofInt?_isSome_iff ha0]
  rw [ofInt?_isSome_iff hb0] at h
  obtain ⟨hal, hah⟩ := significand_bounds ha0
  obtain ⟨hbl, -⟩ := significand_bounds hb0
  have hlog := log2_le_log2 ha0 hab
  have hblog : 52 ≤ (significand b).log2 := (Nat.le_log2 (by omega)).mpr hbl
  have halog : (significand a).log2 ≤ 53 := by
    have := log2_le_log2 (by omega) hah
    rwa [Nat.log2_two_pow] at this
  by_cases heq : a.log2 = b.log2
  · have hle : significand a ≤ significand b := by
      rw [significand, significand, heq]
      exact roundDiv_mono _ (Nat.mul_le_mul_right _ hab)
    have := log2_le_log2 (by omega) hle
    omega
  · omega

/-! ## Integers of either sign -/

theorem fits_neg (d : Dyadic) : Fits (-d) ↔ Fits d := by
  cases d with
  | zero => rfl
  | ofOdd n k hn =>
    rw [Dyadic.neg_ofOdd, Fits, Fits, Int.natAbs_neg]

theorem ofInt?_isSome_neg (n : ℤ) : (ofInt? (-n)).isSome = (ofInt? n).isSome := by
  rw [Bool.eq_iff_iff, ofInt?_isSome_iff_fits rfl rfl, ofInt?_isSome_iff_fits rfl rfl,
    Int.natAbs_neg, Int.sign_neg, Int.neg_mul, ← Dyadic.neg_ofIntWithPrec, fits_neg]

/-- The least magnitude that is rounded beyond the numbers of the format: half a step above the
greatest of them. -/
def tooLarge : ℕ := 2 ^ 1024 - 2 ^ 970

theorem ofInt?_eq_none_iff {n : ℤ} : ofInt? n = none ↔ tooLarge ≤ n.natAbs := by
  have hsign : (ofInt? n).isSome = (ofInt? n.natAbs).isSome := by
    rcases Int.natAbs_eq n with h | h
    · rw [← h]
    · rw [h, ofInt?_isSome_neg, Int.natAbs_neg, Int.natAbs_natCast]
  have hbelow : (ofInt? ((tooLarge - 1 : ℕ) : ℤ)).isSome = true := by decide +kernel
  have hfrom : ¬(ofInt? (tooLarge : ℤ)).isSome = true := by decide +kernel
  rw [← Option.not_isSome_iff_eq_none, hsign]
  constructor
  · intro hnone
    by_contra hlt
    exact hnone (ofInt?_isSome_mono (by omega) hbelow)
  · intro hle hsome
    exact hfrom (ofInt?_isSome_mono hle hsome)

/-- The integral part of a finite number is below the first magnitude that has none. -/
theorem natAbs_truncated_lt {x : Binary64} {n : ℤ} (h : truncated? x = some n) :
    n.natAbs < 2 ^ 1024 := by
  obtain ⟨d, hd, rfl⟩ := Option.map_eq_some_iff.mp h
  have hfits : Fits d := by
    cases x with
    | finite d' fits => exact Option.some.inj hd ▸ fits
    | negativeZero => exact Option.some.inj hd ▸ trivial
    | _ => cases hd
  cases d with
  | zero => exact Nat.two_pow_pos 1024
  | ofOdd m k hodd =>
    obtain ⟨hbits, -, hlog⟩ := hfits
    rw [truncate]
    split
    · rename_i hk
      have hm : m.natAbs ≠ 0 := by omega
      have hlt : m.natAbs < 2 ^ (1024 - (-k).toNat) := (Nat.log2_lt hm).mp (by omega)
      rw [Int.natAbs_mul, Int.natAbs_pow]
      calc m.natAbs * 2 ^ (-k).toNat
          < 2 ^ (1024 - (-k).toNat) * 2 ^ (-k).toNat :=
            Nat.mul_lt_mul_of_pos_right hlt (Nat.two_pow_pos _)
        _ = 2 ^ 1024 := by rw [← Nat.pow_add, Nat.sub_add_cancel (by omega)]
    · rw [Int.natAbs_tdiv]
      calc m.natAbs / (2 ^ k.toNat : ℤ).natAbs ≤ m.natAbs := Nat.div_le_self _ _
        _ < 2 ^ 53 := hbits
        _ ≤ 2 ^ 1024 := Nat.pow_le_pow_right (by decide) (by decide)

end Reconciliation.Binary64
