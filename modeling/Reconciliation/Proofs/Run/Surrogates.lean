import Reconciliation.Proofs.Json.Tokens
import Reconciliation.Run.Execution

/-! # Halves of surrogate pairs

An escape may stand for half of a surrogate pair, which is no character. The readers take the
replacement character for it, so a text that spells a half without the other one is not read as it
is, and what a run does with such a half is outside of this development. All else in a string is
read unit by unit.
-/
namespace Reconciliation

namespace Json

def isSurrogate (n : Nat) : Bool := 0xD800 ≤ n && n < 0xE000

def paired : List Piece → Bool
  | [] => true
  | .char _ :: rest => paired rest
  | .unit m :: .unit n :: rest =>
    if isHighSurrogate m && isLowSurrogate n then paired rest
    else !isSurrogate m && paired (.unit n :: rest)
  | .unit n :: rest => !isSurrogate n && paired rest

/-- No string of a text has half of a surrogate pair without the other one. -/
def wholeCharacters (cs : List Char) : Bool :=
  match cs with
  | [] => true
  | c :: rest =>
    if c = '"' then
      match _h : readString rest with
      | some (pieces, after) => paired pieces && wholeCharacters after
      | none => true
    else wholeCharacters rest
termination_by cs.length
decreasing_by
  · have := readString_length _h
    simp
    omega
  · simp

/-! ## What is read of a string without halves -/

def utf16 (c : Char) : List Nat :=
  if c.toNat < 0x10000 then [c.toNat]
  else [0xD800 + (c.toNat - 0x10000) / 0x400, 0xDC00 + (c.toNat - 0x10000) % 0x400]

def Piece.units : Piece → List Nat
  | char c => utf16 c
  | unit n => [n]

theorem hexValue?_lt {c : Char} {n : Nat} (h : hexValue? c = some n) : n < 16 := by
  rw [hexValue?] at h
  split at h
  · rename_i hd
    simp only [Char.isDigit, Bool.and_eq_true, decide_eq_true_eq, Option.some.injEq] at hd h
    have hle : c.toNat ≤ 57 := hd.2
    omega
  · split at h
    · rename_i hc
      have hle : c.toNat ≤ 102 := hc.2
      have heq := Option.some.inj h
      omega
    · split at h
      · rename_i hc
        have hle : c.toNat ≤ 70 := hc.2
        have heq := Option.some.inj h
        omega
      · cases h

theorem codeUnit?_lt {a b c d : Char} {n : Nat} (h : codeUnit? a b c d = some n) :
    n < 0x10000 := by
  simp only [codeUnit?, Option.bind_eq_bind, Option.bind_eq_some_iff, Option.some.injEq] at h
  obtain ⟨i, hi, j, hj, k, hk, l, hl, rfl⟩ := h
  have := hexValue?_lt hi
  have := hexValue?_lt hj
  have := hexValue?_lt hk
  have := hexValue?_lt hl
  omega

theorem unit_lt_of_readString {cs after : List Char} {pieces : List Piece}
    (h : readString cs = some (pieces, after)) : ∀ n, .unit n ∈ pieces → n < 0x10000 := by
  fun_induction readString cs generalizing pieces after with
  | case1 => cases h
  | case2 rest =>
    obtain ⟨rfl, -⟩ := Prod.mk.inj (Option.some.inj h)
    simp
  | case3 a b c d rest ih =>
    simp only [Option.bind_eq_bind, Option.bind_eq_some_iff, Prod.exists, Option.some.injEq,
      Prod.mk.injEq] at h
    obtain ⟨m, hm, ps, _, hrest, rfl, -⟩ := h
    intro n hn
    rcases List.mem_cons.mp hn with heq | hn
    · exact Piece.unit.inj heq ▸ codeUnit?_lt hm
    · exact ih hrest n hn
  | case4 e rest _ ih =>
    simp only [Option.bind_eq_bind, Option.bind_eq_some_iff, Prod.exists, Option.some.injEq,
      Prod.mk.injEq] at h
    obtain ⟨m, hm, ps, _, hrest, rfl, -⟩ := h
    intro n hn
    rcases List.mem_cons.mp hn with heq | hn
    · cases heq
    · exact ih hrest n hn
  | case5 => cases h
  | case6 c rest _ _ _ _ ih =>
    simp only [Option.bind_eq_bind, Option.bind_eq_some_iff, Prod.exists, Option.some.injEq,
      Prod.mk.injEq] at h
    obtain ⟨ps, _, hrest, rfl, -⟩ := h
    intro n hn
    rcases List.mem_cons.mp hn with heq | hn
    · cases heq
    · exact ih hrest n hn

theorem toNat_ofNat {n : Nat} (h : n.isValidChar) : (Char.ofNat n).toNat = n := by
  rw [Char.ofNat, dif_pos h]
  rfl

theorem utf16_unitChar {n : Nat} (h : n < 0x10000) (hs : isSurrogate n = false) :
    utf16 (unitChar n) = [n] := by
  have hvalid : n.isValidChar := by
    simp only [isSurrogate, Bool.and_eq_false_iff, decide_eq_false_iff_not] at hs
    unfold Nat.isValidChar
    omega
  have hnot : ¬(0xD800 ≤ n ∧ n < 0xE000) := by
    simpa [isSurrogate] using hs
  rw [unitChar, if_neg hnot, utf16, toNat_ofNat hvalid, if_pos h]

theorem utf16_pairChar {m n : Nat} (hm : isHighSurrogate m = true) (hn : isLowSurrogate n = true) :
    utf16 (pairChar m n) = [m, n] := by
  simp only [isHighSurrogate, isLowSurrogate, Bool.and_eq_true, decide_eq_true_eq] at hm hn
  have hvalid : (0x10000 + (m - 0xD800) * 0x400 + (n - 0xDC00)).isValidChar := by
    unfold Nat.isValidChar
    omega
  rw [pairChar, utf16, toNat_ofNat hvalid, if_neg (by omega)]
  have hhigh : 0xD800 + (0x10000 + (m - 0xD800) * 0x400 + (n - 0xDC00) - 0x10000) / 0x400 = m := by
    omega
  have hlow : 0xDC00 + (0x10000 + (m - 0xD800) * 0x400 + (n - 0xDC00) - 0x10000) % 0x400 = n := by
    omega
  rw [hhigh, hlow]

theorem utf16_characters {ps : List Piece} (hu : ∀ n, .unit n ∈ ps → n < 0x10000)
    (h : paired ps = true) : (characters ps).flatMap utf16 = ps.flatMap Piece.units := by
  fun_induction characters ps with
  | case1 => rfl
  | case2 c rest ih =>
    rw [paired] at h
    rw [List.flatMap_cons, List.flatMap_cons, ih (fun n hn => hu n (List.mem_cons_of_mem _ hn)) h]
    rfl
  | case3 m n rest hpair ih =>
    rw [paired, if_pos hpair] at h
    obtain ⟨hm, hn⟩ := (Bool.and_eq_true _ _).mp hpair
    rw [List.flatMap_cons, utf16_pairChar hm hn,
      ih (fun k hk => hu k (List.mem_cons_of_mem _ (List.mem_cons_of_mem _ hk))) h]
    rfl
  | case4 m n rest hpair ih =>
    rw [paired, if_neg hpair, Bool.and_eq_true, Bool.not_eq_true'] at h
    rw [List.flatMap_cons, utf16_unitChar (hu m (by simp)) h.1,
      ih (fun k hk => hu k (List.mem_cons_of_mem _ hk)) h.2]
    rfl
  | case5 n rest hrest ih =>
    have hpaired : isSurrogate n = false ∧ paired rest = true := by
      rw [paired.eq_4 n rest hrest, Bool.and_eq_true, Bool.not_eq_true'] at h
      exact h
    rw [List.flatMap_cons, utf16_unitChar (hu n (by simp)) hpaired.1,
      ih (fun k hk => hu k (List.mem_cons_of_mem _ hk)) hpaired.2]
    rfl

/-- A string without halves is read unit by unit. -/
theorem utf16_of_readString {cs after : List Char} {ps : List Piece}
    (hr : readString cs = some (ps, after)) (h : paired ps = true) :
    (characters ps).flatMap utf16 = ps.flatMap Piece.units :=
  utf16_characters (unit_lt_of_readString hr) h

/-! ## What is printed has no halves -/

theorem unit_lt_of_pieceOf {c : Char} {n : Nat} (h : pieceOf c = .unit n) : n < 32 := by
  rw [pieceOf] at h
  split at h
  · rename_i hc
    exact Piece.unit.inj h ▸ hc.1
  · cases h

theorem paired_unit_of_lt {n : Nat} (h : n < 32) (ps : List Piece) :
    paired (.unit n :: ps) = paired ps := by
  have hhigh : isHighSurrogate n = false := by
    simp only [isHighSurrogate, Bool.and_eq_false_iff, decide_eq_false_iff_not]
    omega
  have hsurrogate : isSurrogate n = false := by
    simp only [isSurrogate, Bool.and_eq_false_iff, decide_eq_false_iff_not]
    omega
  cases ps with
  | nil => simp [paired, hsurrogate]
  | cons p ps =>
    cases p with
    | char c => simp [paired, hsurrogate]
    | unit m => simp [paired, hhigh, hsurrogate]

theorem paired_map_pieceOf (cs : List Char) : paired (cs.map pieceOf) = true := by
  induction cs with
  | nil => rfl
  | cons c cs ih =>
    rw [List.map_cons]
    cases hc : pieceOf c with
    | char d =>
      rw [paired]
      exact ih
    | unit n =>
      rw [paired_unit_of_lt (unit_lt_of_pieceOf hc)]
      exact ih

def Whole (text : List Char) : Prop :=
  ∀ rest, wholeCharacters (text ++ rest) = wholeCharacters rest

theorem whole_append {text rest : List Char} (h : Whole text) (hr : Whole rest) :
    Whole (text ++ rest) := fun more => by
  rw [List.append_assoc, h, hr]

theorem whole_of_not_mem {text : List Char} (h : '"' ∉ text) : Whole text := by
  induction text with
  | nil => exact fun _ => rfl
  | cons c cs ih =>
    rw [List.mem_cons, not_or] at h
    intro rest
    rw [List.cons_append, wholeCharacters, if_neg fun hc => h.1 hc.symm, ih h.2]

theorem whole_quoted (s : String) : Whole (quoted s) := by
  intro rest
  have hread : readString (s.toList.flatMap escaped ++ ['"'] ++ rest) =
      some (s.toList.map pieceOf, rest) := by
    rw [List.append_assoc]
    exact readString_quoted s.toList rest
  rw [quoted, List.cons_append, List.cons_append, wholeCharacters, if_pos rfl]
  split
  · rename_i pieces after heq
    obtain ⟨rfl, rfl⟩ := Prod.mk.inj (Option.some.inj (hread.symm.trans heq))
    rw [paired_map_pieceOf, Bool.true_and]
  · rename_i heq
    rw [hread] at heq
    cases heq

theorem whole_scalarText {v : Value} (hv : v.shape = .null ∨ v.shape = .scalar) :
    Whole (scalarText v) := by
  by_cases hs : ∃ s, v = .string s
  · obtain ⟨s, rfl⟩ := hs
    exact whole_quoted s
  · have hatom := isAtom_scalarText hv fun s hs' => hs ⟨s, hs'⟩
    exact whole_of_not_mem fun h => absurd (hatom.of_mem h).1 (by decide)

theorem composes_whole : Composes Whole where
  nil _ := rfl
  append := whole_append
  mark c hc := by
    apply whole_of_not_mem
    rw [List.mem_singleton]
    rintro rfl
    simp at hc
  scalar _ := whole_scalarText

/-- A printed value has no halves. -/
theorem wholeCharacters_text (style : Style) (v : Value) {rest : List Char}
    (h : '"' ∉ rest) : wholeCharacters (style.text 0 v ++ rest) = true := by
  rw [composes_whole.text style v 0, ← List.append_nil rest, whole_of_not_mem h, wholeCharacters]

-- Two halves of one pair are a character, the second half alone is none.
example : wholeCharacters "[\"\\ud83d\\ude00\"]".toList = true ∧
    wholeCharacters "[\"\\ude00\"]".toList = false := by decide +kernel

end Json

namespace Yaml

/-- No escape of a text stands for half of a surrogate pair. Here two halves are two escapes. -/
def wholeCharacters : List Char → Bool
  | '\\' :: c :: rest =>
    let code? := (Quoted.codeLength? c).bind fun n => hexNumber? (rest.take n)
    !code?.any Json.isSurrogate && wholeCharacters rest
  | _ :: rest => wholeCharacters rest
  | [] => true

end Yaml

structure RunRequest.WholeTexts (r : RunRequest) (t : FileTree) : Prop where
  settings : ∀ text ∈ (t.read (.ofString r.settings)).toOption,
    Yaml.wholeCharacters text.toList = true
  schema : ∀ settings ∈ (Settings.load t (.ofString r.settings)).toOption,
    Yaml.wholeCharacters settings.schema.text.toList = true
  payload : ∀ text ∈ (t.read (.ofString r.remote)).toOption,
    Json.wholeCharacters text.toList = true
  state : ∀ text ∈ (t.read (.ofString r.state)).toOption,
    Json.wholeCharacters text.toList = true

end Reconciliation
