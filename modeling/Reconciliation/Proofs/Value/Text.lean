import Mathlib.Tactic.FieldSimp
import Mathlib.Tactic.NormNum
import Reconciliation.Proofs.Number.RoundTrip
import Reconciliation.Proofs.Value.Equality
import Reconciliation.Value.Hash

/-! # What the text of a scalar tells

The canonical text of a truth value or of a number can be read back as what it stands for, and it is
made of nothing else. So two of them have one text if and only if they are equal, however a number is
written.
-/
namespace Reconciliation

namespace Binary64

/-- An odd number of halves, of quarters and so on is no integer. -/
theorem odd_mul_ne_int {m n k : ℤ} (hm : m % 2 = 1) (hk : 0 < k) : (m : ℚ) * 2 ^ (-k) ≠ n := by
  intro h
  obtain ⟨e, rfl⟩ : ∃ e : ℕ, k = e + 1 := ⟨(k - 1).toNat, by omega⟩
  have hq : (m : ℚ) = n * 2 ^ (e + 1) := by
    rw [← h, zpow_neg]
    norm_cast
    field_simp
  have hz : m = n * 2 ^ e * 2 := by
    rw [mul_assoc, ← pow_succ]
    exact_mod_cast hq
  omega

theorem integer?_eq_some_iff {d : Dyadic} {n : Int} : integer? d = some n ↔ d = Dyadic.ofInt n := by
  have hrat : (Dyadic.ofInt n).toRat = n := Dyadic.toRat_intCast n
  rw [← Dyadic.toRat_inj, hrat]
  cases d with
  | zero => simp [integer?, eq_comm]
  | ofOdd m k hm =>
    rw [Decimal.toRat_ofOdd, integer?]
    by_cases hk : k ≤ 0
    · obtain ⟨e, rfl⟩ : ∃ e : ℕ, k = -(e : ℤ) := ⟨(-k).toNat, by omega⟩
      rw [if_pos hk, Option.some.injEq, Int.neg_neg, Int.toNat_natCast, zpow_natCast]
      norm_cast
    · rw [if_neg hk]
      constructor
      · intro h
        cases h
      · intro h
        exact absurd h (odd_mul_ne_int hm (by omega))

theorem truncate_of_integer? {d : Dyadic} {n : Int} (h : integer? d = some n) : truncate d = n := by
  cases d with
  | zero => exact Option.some.inj h
  | ofOdd m k hm =>
    rw [integer?] at h
    rw [truncate]
    split at h
    · rw [if_pos ‹_›]
      exact Option.some.inj h
    · cases h

end Binary64

namespace Value

/-! ## Numbers -/

theorem toList_intText (n : Int) : (intText n).toList = (Numeral.ofInt n).text :=
  String.toList_ofList

theorem intText_inj {m n : Int} : intText m = intText n ↔ m = n := by
  constructor
  · intro h
    have hread := congrArg (fun s => Numeral.read? s.toList) h
    simp only [toList_intText, Numeral.read?_text (Numeral.written_ofInt _), Option.some.injEq,
      Prod.mk.injEq, and_true] at hread
    rw [← Numeral.toInt_ofInt m, hread, Numeral.toInt_ofInt]
  · rintro rfl
    rfl

theorem floatText_integer {x : Binary64} {n : Int} (h : x.value? = some (Dyadic.ofInt n)) :
    floatText x = intText n := by
  rw [floatText, h, Option.bind_some, Binary64.integer?_eq_some_iff.mpr rfl]

theorem exists_numeral {x : Binary64} {d : Dyadic} (h : x.value? = some d) :
    ∃ n, Numeral.ofBinary64? .plain x = some n := by
  cases x with
  | finite v fits =>
    cases v with
    | zero => exact ⟨_, rfl⟩
    | ofOdd m k hm =>
      simp only [Numeral.ofBinary64?]
      split
      · exact ⟨_, rfl⟩
      · exact ⟨_, rfl⟩
  | negativeZero => exact ⟨_, rfl⟩
  | _ => cases h

/-- Any other finite number is written in the fewest digits that read back. -/
theorem toList_floatText {x : Binary64} {d : Dyadic} (h : x.value? = some d)
    (hd : Binary64.integer? d = none) : ∃ n : Numeral, (floatText x).toList = n.text ∧ n.Written ∧
      n.isInteger = false ∧ n.toBinary64 = x := by
  obtain ⟨n, hn⟩ := exists_numeral h
  have htext : x.text hashNames = n.text := by simp only [Binary64.text, hn]
  refine ⟨n, ?_, Numeral.ofBinary64?_spec hn⟩
  rw [floatText, h, Option.bind_some, hd, htext]
  exact String.toList_ofList

/-! ## Reading a text -/

/-- What a text stands for, if it is the text of a truth value or of a number. -/
def Meaning.ofText? (text : String) : Option Meaning :=
  match Numeral.read? text.toList with
  | some (n, []) =>
    if n.isInteger then some (.number (Dyadic.ofInt n.toInt)) else n.toBinary64.value?.map .number
  | _ =>
    if text = "true" then some (.bool true)
    else if text = "false" then some (.bool false)
    else if text = "inf" then some (.infinity false)
    else if text = "-inf" then some (.infinity true)
    else none

theorem ofText?_of_numeral {text : String} {n : Numeral} (h : text.toList = n.text)
    (hn : n.Written) : Meaning.ofText? text =
      if n.isInteger then some (.number (Dyadic.ofInt n.toInt))
      else n.toBinary64.value?.map .number := by
  rw [Meaning.ofText?, h, Numeral.read?_text hn]

theorem ofText?_int (n : Int) : Meaning.ofText? (intText n) = meaning? (.int n) := by
  rw [ofText?_of_numeral (toList_intText n) (Numeral.written_ofInt n), Numeral.toInt_ofInt]
  rfl

theorem meaning?_of_value? {x : Binary64} {d : Dyadic} (h : x.value? = some d) :
    meaning? (.float x) = some (.number d) := meaning_float_number.mpr h

theorem ofText?_float (x : Binary64) : Meaning.ofText? (floatText x) = meaning? (.float x) := by
  cases hx : x.value? with
  | some d =>
    rw [meaning?_of_value? hx]
    cases hd : Binary64.integer? d with
    | some n =>
      obtain rfl := Binary64.integer?_eq_some_iff.mp hd
      rw [floatText_integer hx, ofText?_int]
      rfl
    | none =>
      obtain ⟨n, htext, hn, hint, rfl⟩ := toList_floatText hx hd
      rw [ofText?_of_numeral htext hn, hint, if_neg Bool.false_ne_true, hx]
      rfl
  | none =>
    cases x with
    | nan => rfl
    | infinity negative => cases negative <;> rfl
    | _ => cases hx

/-! ## Scalars of one text -/

/-- The sorts of values, of which no two have equal values. -/
inductive Family
  | null
  | truth
  | number
  | string
  | array
  | object
deriving DecidableEq

def family : Value → Family
  | .null => .null
  | .bool _ => .truth
  | .int _ | .float _ => .number
  | .string _ => .string
  | .array _ => .array
  | .object _ => .object

theorem family_of_equals {v w : Value} (h : v.equals w = true) : v.family = w.family := by
  cases v <;> cases w <;> first | rfl | simp [equals] at h

theorem ofText?_canonicalText {v : Value} (h : v.family = .truth ∨ v.family = .number) :
    Meaning.ofText? (canonicalText v) = v.meaning? := by
  cases v with
  | bool b => cases b <;> rfl
  | int n => exact ofText?_int n
  | float x => exact ofText?_float x
  | _ => simp [family] at h

/-- Of the scalars only the number that is not one stands for nothing. -/
theorem eq_nan_of_meaning? {v : Value} (h : v.family = .truth ∨ v.family = .number)
    (hm : v.meaning? = none) : v = .float .nan := by
  cases v with
  | float x => cases x <;> first | rfl | simp [meaning?, Binary64.value?] at hm
  | bool b => simp [meaning?] at hm
  | int n => simp [meaning?] at hm
  | _ => simp [family] at h

/-- Truth values and numbers of one text are equal, as far as they are equal to themselves. -/
theorem equals_of_text {v w : Value} (hv : v.family = .truth ∨ v.family = .number)
    (hw : w.family = .truth ∨ w.family = .number) (h : canonicalText v = canonicalText w) :
    v.equals w = true ∨ (v = .float .nan ∧ w = .float .nan) := by
  have hshape {u : Value} (hu : u.family = .truth ∨ u.family = .number) : u.shape = .scalar := by
    cases u <;> first | rfl | simp [family] at hu
  have hmeaning : v.meaning? = w.meaning? := by
    rw [← ofText?_canonicalText hv, h, ofText?_canonicalText hw]
  cases hm : v.meaning? with
  | none => exact Or.inr ⟨eq_nan_of_meaning? hv hm, eq_nan_of_meaning? hw (hmeaning ▸ hm)⟩
  | some m => exact Or.inl ((equals_scalar (hshape hv) (hshape hw)).mpr ⟨m, hm, hmeaning ▸ hm⟩)

def Meaning.text : Meaning → String
  | .bool b => scalarText (.bool b)
  | .number d => match Binary64.integer? d with
    | some n => intText n
    | none => if h : Binary64.Fits d then floatText (.finite d h) else ""
  | .infinity negative => floatText (.infinity negative)
  | .string s => s

/-- The text of a scalar depends on what it stands for alone: a number has one text as an integer and
as none, and zero with either sign. -/
theorem canonicalText_of_meaning? {v : Value} {m : Meaning} (h : v.meaning? = some m) :
    canonicalText v = m.text := by
  cases v with
  | bool b =>
    obtain rfl := Option.some.inj h
    rfl
  | string s =>
    obtain rfl := Option.some.inj h
    rfl
  | int n =>
    obtain rfl := Option.some.inj h
    rw [Meaning.text, Binary64.integer?_eq_some_iff.mpr rfl]
    rfl
  | float x =>
    cases x with
    | finite d fits =>
      obtain rfl := Option.some.inj h
      rw [Meaning.text]
      cases hd : Binary64.integer? d with
      | some n =>
        obtain rfl := Binary64.integer?_eq_some_iff.mp hd
        exact floatText_integer rfl
      | none =>
        dsimp only
        rw [dif_pos fits]
        rfl
    | negativeZero =>
      obtain rfl := Option.some.inj h
      rfl
    | infinity negative =>
      obtain rfl := Option.some.inj h
      rfl
    | nan => cases h
  | _ => cases h

end Value

end Reconciliation
