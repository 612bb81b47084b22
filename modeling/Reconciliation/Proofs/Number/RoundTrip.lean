import Mathlib.Data.List.TakeWhile
import Reconciliation.Proofs.Number.Numeral
import Reconciliation.Proofs.Number.Shortest

/-! # Every number is read back from its numeral -/
namespace Reconciliation.Numeral

/-! ## Integers -/

theorem written_ofInt (n : Int) : (ofInt n).Written where
  whole := isDigits_toDigits n.natAbs
  leading := by
    by_cases h : n.natAbs = 0
    · exact Or.inl (by rw [ofInt, h]; rfl)
    · exact Or.inr (head?_toDigits h)
  fraction := by simp [ofInt]
  exponent := by simp [ofInt]

@[simp] theorem toInt_ofInt (n : Int) : (ofInt n).toInt = n := by
  rw [toInt, ofInt, natural_toDigits, signed]
  by_cases h : n < 0
  · rw [if_pos (by simpa using h)]
    omega
  · rw [if_neg (by simpa using h)]
    omega

/-! ## Decimals -/

theorem toRat_magnitude (n : Numeral) : n.magnitude.toRat =
    natural (n.whole ++ n.fraction.getD []) *
      (10 : ℚ) ^ (n.exponentValue - (n.fraction.getD []).length) := by
  rw [Decimal.toRat_eq, magnitude]

structure Significant (ds : List Char) : Prop where
  digits : IsDigits ds
  leading : ds.head? ≠ some '0'

theorem withoutTrailingZeros_append (ds : List Char) :
    ∃ m, ds = withoutTrailingZeros ds ++ zeros m := by
  refine ⟨(ds.reverse.takeWhile (· == '0')).length, ?_⟩
  have h0 : ds.reverse.takeWhile (· == '0') = zeros (ds.reverse.takeWhile (· == '0')).length := by
    refine List.eq_replicate_iff.mpr ⟨rfl, fun c hc => ?_⟩
    simpa using List.mem_takeWhile_imp hc
  have hsplit := congrArg List.reverse
    (List.takeWhile_append_dropWhile (p := (· == '0')) (l := ds.reverse))
  rw [List.reverse_append, List.reverse_reverse, h0] at hsplit
  rw [withoutTrailingZeros]
  conv_lhs => rw [← hsplit]
  simp [zeros]

theorem significant_withoutTrailingZeros {n : Nat} (h : n ≠ 0) :
    Significant (withoutTrailingZeros (Nat.toDigits 10 n)) := by
  obtain ⟨m, hm⟩ := withoutTrailingZeros_append (Nat.toDigits 10 n)
  set ds := withoutTrailingZeros (Nat.toDigits 10 n)
  have hne : ds ≠ [] := by
    intro hds
    have := congrArg natural hm
    rw [natural_toDigits, hds, List.nil_append, natural_zeros] at this
    exact h this
  refine ⟨⟨hne, fun c hc => (isDigits_toDigits n).2 c ?_⟩, ?_⟩
  · rw [hm]
    exact List.mem_append_left _ hc
  · have hh := head?_toDigits h
    rwa [hm, List.head?_append_of_ne_nil _ hne] at hh

theorem toRat_positional (negative : Bool) (ds : List Char) (point : Int) :
    (positional negative ds point).magnitude.toRat =
      natural ds * (10 : ℚ) ^ (point - ds.length) := by
  have hzero : natural ['0'] = 0 := rfl
  rw [toRat_magnitude, positional]
  split
  · have hn : natural (['0'] ++ (zeros (-point).toNat ++ ds)) = natural ds := by
      rw [natural_append, natural_append, natural_zeros, hzero]
      omega
    simp only [Option.getD_some, hn, exponentValue]
    congr 2
    simp [zeros]
    omega
  · rename_i hp
    obtain ⟨w, hw⟩ := Int.eq_ofNat_of_zero_le (show 0 ≤ point by omega)
    subst hw
    simp only [Int.toNat_natCast, Option.getD_some, exponentValue]
    rcases Nat.lt_or_ge w ds.length with hlt | hge
    · have hn : ds.drop w ≠ [] := by
        rw [ne_eq, List.drop_eq_nil_iff]
        omega
      rw [if_neg (by simpa using hn), Nat.sub_eq_zero_of_le hlt.le]
      simp only [zeros, List.replicate_zero, List.append_nil, List.take_append_drop,
        List.length_drop]
      congr 2
      omega
    · rw [List.drop_eq_nil_of_le hge, List.take_of_length_le hge]
      have hlen : (zeros (w - ds.length)).length = w - ds.length := List.length_replicate
      simp only [List.isEmpty_nil, if_true, natural_append, natural_zeros, hzero, hlen,
        List.length_singleton]
      have he : ((w : ℤ) - ds.length) = (((w - ds.length) + 1 : ℕ) : ℤ) + (0 - 1) := by omega
      rw [he, zpow_add₀ (by norm_num), zpow_natCast]
      push_cast
      ring

section Layout

variable {ds : List Char} (hs : Significant ds)
include hs

theorem written_positional (negative : Bool) (point : Int) :
    (positional negative ds point).Written := by
  obtain ⟨⟨hne, hd⟩, hlead⟩ := hs
  have hall {n : Nat} : ∀ c ∈ zeros n ++ ds, c.isDigit = true := by
    intro c hc
    rcases List.mem_append.mp hc with hc | hc
    · exact isDigit_of_mem_zeros hc
    · exact hd c hc
  rw [positional]
  split
  · exact ⟨⟨by simp, by simp⟩, Or.inl rfl, by rintro _ ⟨⟩; exact ⟨by simp [hne], hall⟩, by simp⟩
  · rename_i hp
    have hw : 0 < point.toNat := by omega
    have hnil : ds.take point.toNat ≠ [] := by
      rw [ne_eq, List.take_eq_nil_iff, not_or]
      exact ⟨hw.ne', hne⟩
    refine ⟨⟨by simp [hnil], ?_⟩, Or.inr ?_, ?_, by simp⟩
    · intro c hc
      rcases List.mem_append.mp hc with hc | hc
      · exact hd c (List.mem_of_mem_take hc)
      · exact isDigit_of_mem_zeros hc
    · rw [List.head?_append_of_ne_nil _ hnil, List.head?_take]
      simpa [hw.ne'] using hlead
    · rintro _ ⟨⟩
      split
      · exact ⟨by simp, by simp⟩
      · rename_i hnil
        exact ⟨by simpa using hnil, fun c hc => hd c (List.mem_of_mem_drop hc)⟩

theorem written_scientific (layout : Layout) (negative : Bool) (point : Int) :
    (scientific layout negative ds point).Written := by
  obtain ⟨⟨hne, hd⟩, hlead⟩ := hs
  obtain ⟨c, cs, rfl⟩ := List.exists_cons_of_ne_nil hne
  refine ⟨⟨by simp [scientific], ?_⟩, Or.inr (by simpa [scientific] using hlead), ?_, ?_⟩
  · intro x hx
    exact hd x (List.mem_of_mem_take hx)
  · intro places hp
    by_cases hcs : cs = []
    · simp [scientific, hcs] at hp
    · obtain rfl : cs = places := by simpa [scientific, hcs] using hp
      exact ⟨hcs, fun x hx => hd x (List.mem_cons_of_mem _ hx)⟩
  · rintro _ ⟨⟩
    refine ⟨by simp [padded, Nat.toDigits_ne_nil], fun x hx => ?_⟩
    rcases List.mem_append.mp hx with hx | hx
    · exact isDigit_of_mem_zeros hx
    · exact (isDigits_toDigits _).2 x hx

theorem toRat_scientific (layout : Layout) (negative : Bool) (point : Int) :
    (scientific layout negative ds point).magnitude.toRat =
      natural ds * (10 : ℚ) ^ (point - ds.length) := by
  obtain ⟨c, cs, rfl⟩ := List.exists_cons_of_ne_nil hs.digits.1
  have hplaces : (scientific layout negative (c :: cs) point).fraction.getD [] = cs := by
    by_cases hcs : cs = [] <;> simp [scientific, hcs]
  have hexp : (scientific layout negative (c :: cs) point).exponentValue = point - 1 := by
    simp only [scientific, exponentValue, padded, natural_append, natural_zeros, natural_toDigits,
      signed]
    by_cases h : point - 1 < 0
    · rw [if_pos (by simpa using h)]
      omega
    · rw [if_neg (by simpa using h)]
      omega
  rw [toRat_magnitude, hplaces, hexp]
  simp only [scientific, List.take_succ_cons, List.take_zero, List.singleton_append,
    List.length_cons]
  congr 2
  push_cast
  omega

end Layout

/-- The numeral of a decimal is well written and has its value. -/
theorem ofDecimal_spec (layout : Layout) (negative : Bool) (d : Decimal) :
    (ofDecimal layout negative d).Written ∧ (ofDecimal layout negative d).isInteger = false ∧
      (ofDecimal layout negative d).negative = negative ∧
      (ofDecimal layout negative d).magnitude.toRat = d.toRat := by
  rw [ofDecimal]
  split
  · rename_i h
    refine ⟨⟨⟨by simp, by simp⟩, Or.inl rfl, ?_, by simp⟩, rfl, rfl, ?_⟩
    · rintro _ ⟨⟩
      exact ⟨by simp, by simp⟩
    · rw [(Decimal.toRat_eq_zero_iff d).mpr h]
      exact (Decimal.toRat_eq_zero_iff _).mpr rfl
  · rename_i h
    have hs := significant_withoutTrailingZeros h
    obtain ⟨m, hm⟩ := withoutTrailingZeros_append (Nat.toDigits 10 d.digits)
    set ds := withoutTrailingZeros (Nat.toDigits 10 d.digits)
    have hvalue : natural ds * (10 : ℚ) ^
        ((((Nat.toDigits 10 d.digits).length : ℤ) + d.exponent) - ds.length) = d.toRat := by
      have hdigits : d.digits = natural ds * 10 ^ m := by
        rw [← natural_toDigits d.digits, hm, natural_append, natural_zeros]
        simp [zeros]
      have hexp : (((Nat.toDigits 10 d.digits).length : ℤ) + d.exponent) - ds.length =
          m + d.exponent := by
        rw [hm]
        simp [zeros]
        omega
      rw [hexp, Decimal.toRat_eq, zpow_add₀ (by norm_num), zpow_natCast, ← mul_assoc]
      conv_rhs => rw [hdigits]
      push_cast
      rfl
    dsimp only
    split
    · refine ⟨written_positional hs _ _, ?_, ?_, (toRat_positional _ _ _).trans hvalue⟩
      · rw [positional]
        split <;> rfl
      · rw [positional]
        split <;> rfl
    · exact ⟨written_scientific hs _ _ _, by simp [scientific, isInteger], rfl,
        (toRat_scientific hs _ _ _).trans hvalue⟩

theorem toBinary64_ofDecimal (layout : Layout) (negative : Bool) (d : Decimal) :
    (ofDecimal layout negative d).toBinary64 =
      if negative then d.toBinary64.neg else d.toBinary64 := by
  obtain ⟨-, -, hneg, hmag⟩ := ofDecimal_spec layout negative d
  rw [toBinary64, hneg, Decimal.toBinary64_congr hmag]

/-! ## Floating-point numbers -/

theorem neg_neg (x : Binary64) : x.neg.neg = x := by
  cases x with
  | finite d h =>
    cases d with
    | zero => rfl
    | ofOdd n k hn => simp [Binary64.neg]
  | negativeZero => rfl
  | _ => simp [Binary64.neg]

/-- A number that has a numeral is what the numeral is read as. -/
theorem ofBinary64?_spec {layout : Layout} {x : Binary64} {n : Numeral}
    (h : ofBinary64? layout x = some n) :
    n.Written ∧ n.isInteger = false ∧ n.toBinary64 = x := by
  suffices ∃ negative d, n = ofDecimal layout negative d ∧
      (if negative then d.toBinary64.neg else d.toBinary64) = x by
    obtain ⟨negative, d, rfl, hx⟩ := this
    obtain ⟨hw, hi, -⟩ := ofDecimal_spec layout negative d
    exact ⟨hw, hi, (toBinary64_ofDecimal layout negative d).trans hx⟩
  cases x with
  | nan => cases h
  | infinity s => cases h
  | negativeZero => exact ⟨true, ⟨0, 0⟩, (Option.some.inj h).symm, rfl⟩
  | finite v fits =>
    cases v with
    | zero => exact ⟨false, ⟨0, 0⟩, (Option.some.inj h).symm, rfl⟩
    | ofOdd m k hm =>
      have hp : (0 : ℚ) < 2 ^ (-k) := by positivity
      simp only [ofBinary64?] at h
      split at h
      · rename_i hneg
        refine ⟨true, _, (Option.some.inj h).symm, ?_⟩
        have hx : -(Dyadic.ofOdd m k hm).toRat = (Dyadic.ofOdd (-m) k (by omega)).toRat := by
          rw [Decimal.toRat_ofOdd, Decimal.toRat_ofOdd]
          push_cast
          ring
        have hpos : 0 < (Dyadic.ofOdd (-m) k (by omega)).toRat := by
          rw [Decimal.toRat_ofOdd]
          exact mul_pos (by exact_mod_cast Int.neg_pos_of_neg hneg) hp
        rw [if_pos rfl, hx, Binary64.neg, Decimal.shortest_reads _ hpos]
        exact neg_neg (.finite (.ofOdd m k hm) fits)
      · rename_i hneg
        refine ⟨false, _, (Option.some.inj h).symm, ?_⟩
        have hpos : 0 < (Dyadic.ofOdd m k hm).toRat := by
          rw [Decimal.toRat_ofOdd]
          exact mul_pos (by exact_mod_cast (by omega : 0 < m)) hp
        exact Decimal.shortest_reads fits hpos

end Reconciliation.Numeral
