import Mathlib.Data.List.Basic
import Mathlib.Data.Nat.Init
import Reconciliation.Number.Numeral

/-! # Numerals read back

A numeral is well written if all its parts are digits and no zero stands in front of its whole
part. Such a numeral is read from its text as it is. Every integer and every decimal has one.
-/
namespace Reconciliation.Numeral

-- Powers are those of the core library, also where a module imports others.
attribute [local instance (10000)] instPowNat

/-! ## Digits -/

theorem natural_eq (ds : List Char) : natural ds = Nat.ofDigitChars 10 ds 0 := by
  rw [Nat.ofDigitChars_eq_foldl]
  rfl

@[simp] theorem natural_toDigits (n : Nat) : natural (Nat.toDigits 10 n) = n := by
  rw [natural_eq, Nat.ofDigitChars_ten_toDigits]

theorem natural_append (ds es : List Char) :
    natural (ds ++ es) = natural ds * 10 ^ es.length + natural es := by
  rw [natural_eq, Nat.ofDigitChars_append, Nat.ofDigitChars_eq_ofDigitChars_zero, natural_eq,
    natural_eq, Nat.mul_comm]

@[simp] theorem natural_zeros (n : Nat) : natural (zeros n) = 0 := by
  rw [natural_eq, zeros, Nat.ofDigitChars_replicate_zero, Nat.mul_zero]

def IsDigits (ds : List Char) : Prop := ds ≠ [] ∧ ∀ c ∈ ds, c.isDigit = true

theorem isDigits_toDigits (n : Nat) : IsDigits (Nat.toDigits 10 n) :=
  ⟨Nat.toDigits_ne_nil, fun _ hc => Nat.isDigit_of_mem_toDigits (by decide) (by decide) hc⟩

theorem isDigit_of_mem_zeros {n : Nat} {c : Char} (h : c ∈ zeros n) : c.isDigit = true := by
  rw [(List.mem_replicate.mp h).2]
  rfl

theorem head?_toDigits {n : Nat} (h : n ≠ 0) : (Nat.toDigits 10 n).head? ≠ some '0' := by
  induction n using Nat.strongRecOn with
  | ind n ih =>
    by_cases hn : n < 10
    · rw [Nat.toDigits_of_lt_base hn]
      simpa using h
    · have hm : 0 < n / 10 := Nat.div_pos (by omega) (by decide)
      rw [Nat.toDigits_of_base_le (by decide) (by omega), List.head?_append]
      have hh := ih (n / 10) (by omega) (by omega)
      cases hd : Nat.toDigits 10 (n / 10) with
      | nil => exact absurd hd Nat.toDigits_ne_nil
      | cons c cs => simpa [hd] using hh

/-! ## Reading -/

structure Written (n : Numeral) : Prop where
  whole : IsDigits n.whole
  leading : n.whole = ['0'] ∨ n.whole.head? ≠ some '0'
  fraction : ∀ places ∈ n.fraction, IsDigits places
  exponent : ∀ e ∈ n.exponent, IsDigits e.2

theorem digitRun_append {ds rest : List Char} (h : ∀ c ∈ ds, c.isDigit = true)
    (hr : ∀ c ∈ rest.head?, c.isDigit = false) : digitRun (ds ++ rest) = (ds, rest) := by
  have ht : rest.takeWhile Char.isDigit = [] ∧ rest.dropWhile Char.isDigit = rest := by
    cases rest with
    | nil => exact ⟨rfl, rfl⟩
    | cons c cs => simp [hr c (by simp)]
  rw [digitRun, List.takeWhile_append_of_pos h, List.dropWhile_append_of_pos h, ht.1, ht.2,
    List.append_nil]

def exponentText : Option (Bool × List Char) → List Char
  | none => []
  | some (negative, digits) => 'e' :: (if negative then '-' else '+') :: digits

def fractionText : Option (List Char) → List Char
  | none => []
  | some places => '.' :: places

theorem text_eq (n : Numeral) : n.text = (if n.negative then ['-'] else []) ++
    (n.whole ++ (fractionText n.fraction ++ exponentText n.exponent)) := by
  obtain ⟨negative, whole, _ | places, _ | ⟨s, ds⟩⟩ := n <;>
    simp [text, fractionText, exponentText]

theorem readExponent_text {e : Option (Bool × List Char)} (h : ∀ x ∈ e, IsDigits x.2) :
    readExponent (exponentText e) = (e, []) := by
  rcases e with _ | ⟨negative, digits⟩
  · rfl
  · obtain ⟨hne, hd⟩ := h _ rfl
    have hrun : digitRun digits = (digits, []) := by
      have := digitRun_append hd (show ∀ c ∈ ([] : List Char).head?, c.isDigit = false by simp)
      rwa [List.append_nil] at this
    obtain ⟨d, ds, rfl⟩ := List.exists_cons_of_ne_nil hne
    cases negative <;> simp [exponentText, readExponent, readExponentDigits, hrun]

theorem readFraction_text {f : Option (List Char)} (h : ∀ places ∈ f, IsDigits places)
    (e : Option (Bool × List Char)) :
    readFraction (fractionText f ++ exponentText e) = (f, exponentText e) := by
  rcases f with _ | places
  · rcases e with _ | ⟨negative, digits⟩ <;> rfl
  · obtain ⟨hne, hd⟩ := h _ rfl
    have hrun : digitRun (places ++ exponentText e) = (places, exponentText e) :=
      digitRun_append hd (by rcases e with _ | ⟨negative, digits⟩ <;> simp [exponentText])
    obtain ⟨d, ds, rfl⟩ := List.exists_cons_of_ne_nil hne
    simp only [fractionText, List.cons_append, readFraction]
    rw [List.cons_append] at hrun
    rw [hrun]

theorem readUnsigned_text {n : Numeral} (h : n.Written) :
    readUnsigned n.negative (n.whole ++ (fractionText n.fraction ++ exponentText n.exponent)) =
      some (n, []) := by
  obtain ⟨negative, whole, fraction, exponent⟩ := n
  obtain ⟨⟨hne, hd⟩, hlead, hf, he⟩ := h
  dsimp only at *
  have hrest : ∀ c ∈ (fractionText fraction ++ exponentText exponent).head?,
      c.isDigit = false := by
    rcases fraction with _ | places <;> rcases exponent with _ | ⟨s, ds⟩ <;>
      simp [fractionText, exponentText]
  have hrun := digitRun_append hd hrest
  obtain ⟨c, cs, rfl⟩ := List.exists_cons_of_ne_nil hne
  rcases hlead with hz | hz
  · obtain ⟨rfl, rfl⟩ := List.cons.inj hz
    simp only [readUnsigned, List.cons_append, List.nil_append, readFraction_text hf,
      readExponent_text he]
    rfl
  · have hc : c ≠ '0' := by simpa using hz
    rw [List.cons_append] at hrun
    simp [readUnsigned, hc, hrun, readFraction_text hf, readExponent_text he]

theorem read?_text {n : Numeral} (h : n.Written) : read? n.text = some (n, []) := by
  rw [text_eq]
  have hr := readUnsigned_text h
  cases hn : n.negative with
  | true => simpa [read?, hn] using hr
  | false =>
    obtain ⟨c, cs, hw⟩ := List.exists_cons_of_ne_nil h.whole.1
    have hc : c ≠ '-' := by
      rintro rfl
      have := h.whole.2 '-' (by simp [hw])
      simp at this
    simp only [Bool.false_eq_true, if_false, List.nil_append]
    rw [hn, hw, List.cons_append] at hr
    rw [hw, List.cons_append, read?]
    · exact hr
    · rintro _ heq
      exact hc (List.cons.inj heq).1

end Reconciliation.Numeral
