import Reconciliation.Json.Printer
import Reconciliation.Proofs.Number.RoundTrip

/-! # Scalars read back from their JSON texts

A string is read up to its closing quote whatever follows it. A word or number is read as long as a
delimiter, or nothing, follows it.
-/
namespace Reconciliation.Json

/-! ## Strings -/

def pieceOf (c : Char) : Piece :=
  if c.toNat < 32 ∧ c ∉ ['\n', '\r', '\t', '\x0c', '\x08'] then .unit c.toNat else .char c

theorem codeUnit?_hexChar :
    ∀ n < 32, codeUnit? '0' '0' (hexChar (n / 16)) (hexChar (n % 16)) = some n := by
  decide

theorem readString_escaped (c : Char) (rest : List Char) :
    readString (escaped c ++ rest) =
      (readString rest).map fun p => (pieceOf c :: p.1, p.2) := by
  have hbind : ∀ q : Piece, ((readString rest).bind fun p => some (q :: p.1, p.2)) =
      (readString rest).map fun p => (q :: p.1, p.2) := by
    intro q
    cases readString rest <;> rfl
  unfold escaped
  split
  case h_8 =>
    rename_i h1 h2 h3 h4 h5 h6 h7
    split
    · rename_i hc
      have hp : pieceOf c = .unit c.toNat := by
        rw [pieceOf, if_pos]
        simp only [List.mem_cons, List.not_mem_nil, or_false, not_or]
        exact ⟨hc, h3, h4, h5, h6, h7⟩
      simp only [List.cons_append, List.nil_append, readString, codeUnit?_hexChar _ hc]
      rw [hp]
      exact hbind _
    · rename_i hc
      have hp : pieceOf c = .char c := by
        rw [pieceOf, if_neg fun h => hc h.1]
      have hcond : ¬(c.toNat < 32 ∨ c = '\\') := fun h => h.elim hc h2
      simp only [List.cons_append, List.nil_append]
      rw [readString, if_neg hcond, hp]
      · exact hbind _
      · exact fun h => h1 h
      · exact fun _ _ _ _ _ h => absurd h h2
      · exact fun _ _ h => absurd h h2
  all_goals exact hbind _

/-- A control character stands for itself and is no surrogate. -/
theorem characters_map_pieceOf (cs : List Char) : characters (cs.map pieceOf) = cs := by
  induction cs with
  | nil => rfl
  | cons c cs ih =>
    rw [List.map_cons]
    by_cases hc : c.toNat < 32 ∧ c ∉ ['\n', '\r', '\t', '\x0c', '\x08']
    · have hunit : unitChar c.toNat = c := by
        rw [unitChar, if_neg (by omega), Char.ofNat_toNat]
      rw [pieceOf, if_pos hc]
      cases hcs : cs.map pieceOf with
      | nil =>
        rw [characters, ← hcs, ih, hunit]
        simp
      | cons p ps =>
        rw [hcs] at ih
        cases p with
        | char d => rw [characters, ih, hunit]; simp
        | unit n =>
          have hlow : isHighSurrogate c.toNat = false := by simp [isHighSurrogate]; omega
          rw [characters, hlow, Bool.false_and, ih, hunit]
          simp
    · rw [pieceOf, if_neg hc, characters, ih]

theorem readString_quoted (cs rest : List Char) :
    readString (cs.flatMap escaped ++ '"' :: rest) = some (cs.map pieceOf, rest) := by
  induction cs with
  | nil => rfl
  | cons c cs ih =>
    rw [List.flatMap_cons, List.append_assoc, readString_escaped, ih]
    rfl

/-! ## Words and numbers -/

theorem mem_delimiters {c : Char} (h : isDelimiter c = true) :
    c ∈ [' ', '\n', '\t', '\r', '"', '[', ']', '{', '}', ',', ':'] := by
  simp only [isDelimiter, isSpace, Bool.or_eq_true, beq_iff_eq] at h
  rcases h with ((((rfl | rfl) | rfl) | rfl) | rfl) | h
  all_goals try simp
  unfold punctuation? at h
  split at h <;> simp_all

theorem not_delimiter_of_isDigit {c : Char} (h : c.isDigit = true) : isDelimiter c = false := by
  by_contra hd
  have hm := mem_delimiters (eq_true_of_ne_false hd)
  simp only [List.mem_cons, List.not_mem_nil, or_false] at hm
  rcases hm with rfl | rfl | rfl | rfl | rfl | rfl | rfl | rfl | rfl | rfl | rfl <;>
    exact absurd h (by decide)

theorem toNat_of_isDigit {c : Char} (h : c.isDigit = true) : 32 ≤ c.toNat := by
  simp only [Char.isDigit, Bool.and_eq_true, decide_eq_true_eq] at h
  have hle : ('0' : Char).toNat ≤ c.toNat := h.1
  exact le_trans (by decide) hle

/-- A character that stands neither between values nor for a control. -/
def isAtomic (c : Char) : Bool := !isDelimiter c && decide (32 ≤ c.toNat)

theorem isAtomic_iff {c : Char} :
    isAtomic c = true ↔ isDelimiter c = false ∧ 32 ≤ c.toNat := by
  simp [isAtomic]

structure IsAtom (cs : List Char) (v : Value) : Prop where
  nonempty : cs ≠ []
  plain : cs.all isAtomic = true
  reads : atom? cs = some v

theorem IsAtom.of_mem {cs : List Char} {v : Value} (h : IsAtom cs v) {c : Char} (hc : c ∈ cs) :
    isDelimiter c = false ∧ 32 ≤ c.toNat := isAtomic_iff.mp (List.all_eq_true.mp h.plain c hc)

theorem plain_text {n : Numeral} (h : n.Written) : n.text.all isAtomic = true := by
  have hsign : ['-', '+', '.', 'e'].all isAtomic = true := by decide
  rw [List.all_eq_true] at hsign ⊢
  have hdigits {ds : List Char} (hd : Numeral.IsDigits ds) : ∀ c ∈ ds, isAtomic c = true :=
    fun c hc => isAtomic_iff.mpr
      ⟨not_delimiter_of_isDigit (hd.2 c hc), toNat_of_isDigit (hd.2 c hc)⟩
  intro c hc
  rw [Numeral.text_eq, List.mem_append, List.mem_append, List.mem_append] at hc
  rcases hc with hc | hc | hc | hc
  · split at hc
    · rw [List.mem_singleton.mp hc]
      exact hsign _ (by simp)
    · cases hc
  · exact hdigits h.whole c hc
  · rcases hf : n.fraction with _ | places <;> rw [hf] at hc
    · cases hc
    · rcases List.mem_cons.mp hc with rfl | hc
      · exact hsign _ (by simp)
      · exact hdigits (h.fraction _ hf) c hc
  · rcases he : n.exponent with _ | ⟨negative, digits⟩ <;> rw [he] at hc
    · cases hc
    · rcases List.mem_cons.mp hc with rfl | hc
      · exact hsign _ (by simp)
      · rcases List.mem_cons.mp hc with rfl | hc
        · cases negative <;> exact hsign _ (by simp)
        · exact hdigits (h.exponent _ he) c hc

/-- No word begins as a numeral does. -/
theorem lookup_words {n : Numeral} (h : n.Written) :
    words.lookup (String.ofList n.text) = none := by
  rw [List.lookup_eq_none_iff]
  intro w hw
  rw [bne_iff_ne]
  intro heq
  have htext : n.text = w.1.toList := by rw [← heq, String.toList_ofList]
  obtain ⟨c, cs, hwhole⟩ := List.exists_cons_of_ne_nil h.whole.1
  have hdigit := h.whole.2 c (by simp [hwhole])
  rw [Numeral.text_eq, hwhole] at htext
  have hhead : (w.1.toList.dropWhile (· == '-')).head? = some c := by
    have hc : (c == '-') = false := by
      rw [beq_eq_false_iff_ne]
      rintro rfl
      exact absurd hdigit (by decide)
    rw [← htext]
    cases n.negative <;> simp [hc]
  simp only [words, List.mem_cons, List.not_mem_nil, or_false] at hw
  rcases hw with rfl | rfl | rfl | rfl | rfl | rfl <;>
    (obtain rfl := Option.some.inj hhead; exact absurd hdigit (by decide))

theorem isAtom_text {n : Numeral} (h : n.Written) : IsAtom n.text (number n) where
  nonempty := by
    rw [Numeral.text_eq]
    simp [h.whole.1]
  plain := plain_text h
  reads := by rw [atom?, lookup_words h, Numeral.read?_text h]

theorem isAtom_int (n : Int) : IsAtom (Numeral.ofInt n).text (.int n) := by
  have h := isAtom_text (Numeral.written_ofInt n)
  rwa [number, if_pos (show (Numeral.ofInt n).isInteger = true from rfl),
    Numeral.toInt_ofInt] at h

theorem isAtom_ofBinary64? {x : Binary64} {n : Numeral}
    (h : Numeral.ofBinary64? .plain x = some n) : IsAtom n.text (.float x) := by
  obtain ⟨hw, hi, hx⟩ := Numeral.ofBinary64?_spec h
  have ha := isAtom_text hw
  rwa [number, hi, if_neg Bool.false_ne_true, hx] at ha

theorem isAtom_float (x : Binary64) : IsAtom (x.text numberNames) (.float x) := by
  cases hn : Numeral.ofBinary64? .plain x with
  | some n =>
    unfold Binary64.text
    rw [hn]
    exact isAtom_ofBinary64? hn
  | none =>
    match x with
    | .nan => exact ⟨by decide, by decide, rfl⟩
    | .infinity true => exact ⟨by decide, by decide, rfl⟩
    | .infinity false => exact ⟨by decide, by decide, rfl⟩
    | .negativeZero => cases hn
    | .finite .zero _ => cases hn
    | .finite (.ofOdd n k _) _ =>
      simp only [Numeral.ofBinary64?] at hn
      split at hn <;> cases hn

theorem isAtom_scalarText {v : Value} (hv : v.shape = .null ∨ v.shape = .scalar)
    (hs : ∀ s, v ≠ .string s) : IsAtom (scalarText v) v := by
  cases v with
  | null => exact ⟨by decide, by decide, rfl⟩
  | bool b => cases b <;> exact ⟨by decide, by decide, rfl⟩
  | int n => exact isAtom_int n
  | float x => exact isAtom_float x
  | string s => exact absurd rfl (hs s)
  | array xs => simp [Value.shape] at hv
  | object es => simp [Value.shape] at hv

end Reconciliation.Json
