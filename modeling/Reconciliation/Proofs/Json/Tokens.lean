import Reconciliation.Proofs.Json.Scalar
import Reconciliation.Proofs.Value.Order

/-! # The tokens of a printed value

Each printed part is read as its tokens, whatever follows it after a delimiter. White space between
parts is skipped, so the tokens do not depend on the layout.
-/
namespace Reconciliation.Json

/-! ## The tokens of a value -/

def separated : List (List Token) → List Token
  | [] => []
  | part :: rest => part ++ rest.flatMap (.comma :: ·)

mutual

def tokens : Value → List Token
  | .array xs => .openArray :: separated (itemTokens xs) ++ [.closeArray]
  | .object es => .openObject :: separated (entryTokens es) ++ [.closeObject]
  | v => [.scalar v]

def itemTokens : List Value → List (List Token)
  | [] => []
  | x :: xs => tokens x :: itemTokens xs

def entryTokens : List (String × Value) → List (List Token)
  | [] => []
  | (k, v) :: es => (.scalar (.string k) :: .colon :: tokens v) :: entryTokens es

end

/-! ## What every printed text has -/

theorem itemTexts_eq (style : Style) (depth : Nat) (xs : List Value) :
    style.itemTexts depth xs = xs.map (style.text depth) := by
  induction xs with
  | nil => rfl
  | cons x xs ih => rw [Style.itemTexts, ih, List.map_cons]

theorem fieldTexts_eq (style : Style) (depth : Nat) (es : Entries Value) :
    style.fieldTexts depth es = Entries.mapValues (style.text depth) es := by
  induction es with
  | nil => rfl
  | cons e es ih =>
    obtain ⟨k, v⟩ := e
    rw [Style.fieldTexts, ih, Entries.mapValues_cons]

/-- A property that marks and printed scalars have, and texts that are put together of such. -/
structure Composes (P : List Char → Prop) : Prop where
  nil : P []
  append : ∀ {text rest}, P text → P rest → P (text ++ rest)
  mark : ∀ c ∈ ['[', ']', '{', '}', ',', ':', ' ', '\n'], P [c]
  scalar : ∀ v : Value, v.shape = .null ∨ v.shape = .scalar → P (scalarText v)

namespace Composes

variable {P : List Char → Prop} (h : Composes P)
include h

theorem flatMap {α : Type} {f : α → List Char} {xs : List α} (hf : ∀ x ∈ xs, P (f x)) :
    P (xs.flatMap f) := by
  induction xs with
  | nil => exact h.nil
  | cons x xs ih =>
    obtain ⟨hx, hxs⟩ := List.forall_mem_cons.mp hf
    rw [List.flatMap_cons]
    exact h.append hx (ih hxs)

theorem marks {text : List Char}
    (ht : ∀ c ∈ text, c ∈ ['[', ']', '{', '}', ',', ':', ' ', '\n']) : P text := by
  have hsingle := h.flatMap (f := fun c => [c]) fun c hc => h.mark c (ht c hc)
  rwa [List.flatMap_singleton'] at hsingle

theorem lineBreak (style : Style) (depth : Nat) : P (style.break depth) := by
  apply h.marks
  intro c hc
  rw [Style.break] at hc
  split at hc
  · rcases List.mem_cons.mp hc with rfl | hc
    · decide
    · rw [(List.mem_replicate.mp hc).2]
      decide
  · cases hc

theorem colon (style : Style) : P style.colon := by
  rw [Style.colon]
  split <;> exact h.marks (by simp)

theorem enclosed {style : Style} {depth : Nat} {first last : Char} (hf : P [first])
    (hl : P [last]) {parts : List (List Char)} (hp : ∀ part ∈ parts, P part) :
    P (style.enclosed depth first last parts) := by
  cases parts with
  | nil => exact h.append hf hl
  | cons part parts =>
    obtain ⟨hpart, hparts⟩ := List.forall_mem_cons.mp hp
    have hcomma : P (',' :: style.break (depth + 1)) :=
      h.append (h.mark ',' (by decide)) (h.lineBreak style _)
    have hrest : P (parts.flatMap fun p => ',' :: style.break (depth + 1) ++ p) :=
      h.flatMap fun p hp => h.append hcomma (hparts p hp)
    have hstart : P (first :: style.break (depth + 1) ++ part) :=
      h.append (h.append hf (h.lineBreak style _)) hpart
    exact h.append (h.append (h.append hstart hrest) (h.lineBreak style _)) hl

theorem text (style : Style) (v : Value) (depth : Nat) : P (style.text depth v) := by
  induction v generalizing depth with
  | array xs ih =>
    rw [Style.text, itemTexts_eq]
    refine h.enclosed (h.mark '[' (by decide)) (h.mark ']' (by decide)) fun part hpart => ?_
    obtain ⟨x, hx, rfl⟩ := List.mem_map.mp hpart
    exact ih x hx (depth + 1)
  | object es ih =>
    rw [Style.text, fieldTexts_eq]
    refine h.enclosed (h.mark '{' (by decide)) (h.mark '}' (by decide)) fun part hpart => ?_
    obtain ⟨e, he, rfl⟩ := List.mem_map.mp hpart
    have hmem : e ∈ Entries.mapValues (style.text (depth + 1)) es := by
      split at he
      · exact Entries.mem_sorted.mp he
      · exact he
    obtain ⟨f, hf, rfl⟩ := List.mem_map.mp hmem
    have hkey : P (quoted f.1) := h.scalar (.string f.1) (Or.inr rfl)
    exact h.append (h.append hkey (h.colon style)) (ih f hf (depth + 1))
  | null => exact h.scalar .null (Or.inl rfl)
  | bool b => exact h.scalar (.bool b) (Or.inr rfl)
  | int n => exact h.scalar (.int n) (Or.inr rfl)
  | float x => exact h.scalar (.float x) (Or.inr rfl)
  | string s => exact h.scalar (.string s) (Or.inr rfl)

end Composes

/-! ## What a text is read as -/

def Delimited (rest : List Char) : Prop := ∀ c ∈ rest.head?, isDelimiter c = true

/-- A text is read as the tokens, whatever follows it after a delimiter. -/
def ReadAs (text : List Char) (ts : List Token) : Prop :=
  ∀ rest, Delimited rest → tokens? (text ++ rest) = (tokens? rest).map (ts ++ ·)

theorem delimited_cons {c : Char} (h : isDelimiter c = true) (rest : List Char) :
    Delimited (c :: rest) := by
  simpa [Delimited] using h

theorem tokens?_space {c : Char} (h : isSpace c = true) (rest : List Char) :
    tokens? (c :: rest) = tokens? rest := by
  rw [tokens?, if_pos h]

theorem tokens?_spaces {text : List Char} (h : ∀ c ∈ text, isSpace c = true) (rest : List Char) :
    tokens? (text ++ rest) = tokens? rest := by
  induction text with
  | nil => rfl
  | cons c cs ih =>
    rw [List.cons_append, tokens?_space (h c (by simp)),
      ih fun d hd => h d (List.mem_cons_of_mem _ hd)]

theorem isSpace_of_mem_break {style : Style} {depth : Nat} {c : Char}
    (h : c ∈ style.break depth) : isSpace c = true := by
  rw [Style.break] at h
  split at h
  · rcases List.mem_cons.mp h with rfl | h
    · rfl
    · rw [(List.mem_replicate.mp h).2]
      rfl
  · cases h

theorem tokens?_mark {c : Char} {t : Token} (h : punctuation? c = some t) (rest : List Char) :
    tokens? (c :: rest) = (tokens? rest).map (t :: ·) := by
  have hs : isSpace c = false := by
    by_contra hs
    rw [Bool.not_eq_false, isSpace, Bool.or_eq_true, Bool.or_eq_true, Bool.or_eq_true, beq_iff_eq,
      beq_iff_eq, beq_iff_eq, beq_iff_eq] at hs
    rcases hs with ((rfl | rfl) | rfl) | rfl <;> cases h
  rw [tokens?, if_neg (by rw [hs]; exact Bool.false_ne_true), h]

theorem readAs_quoted (s : String) : ReadAs (quoted s) [.scalar (.string s)] := by
  intro rest _
  have hread : readString (s.toList.flatMap escaped ++ ['"'] ++ rest) =
      some (s.toList.map pieceOf, rest) := by
    rw [List.append_assoc]
    exact readString_quoted s.toList rest
  rw [quoted, List.cons_append, List.cons_append, tokens?, if_neg (by decide)]
  change (if '"' = '"' then _ else _) = _
  rw [if_pos rfl]
  split
  · rename_i pieces after heq
    obtain ⟨rfl, rfl⟩ := Prod.mk.inj (Option.some.inj (hread.symm.trans heq))
    rw [characters_map_pieceOf, String.ofList_toList]
    rfl
  · rename_i heq
    rw [hread] at heq
    cases heq

theorem readAs_atom {text : List Char} {v : Value} (h : IsAtom text v) :
    ReadAs text [.scalar v] := by
  intro rest hrest
  obtain ⟨c, cs, rfl⟩ := List.exists_cons_of_ne_nil h.nonempty
  have hc := (h.of_mem (show c ∈ c :: cs by simp)).1
  simp only [isDelimiter, Bool.or_eq_false_iff, Option.isSome_eq_false_iff,
    Option.isNone_iff_eq_none, beq_eq_false_iff_ne] at hc
  obtain ⟨⟨hspace, hquote⟩, hmark⟩ := hc
  have hcs : ∀ d ∈ cs, (!isDelimiter d) = true := by
    intro d hd
    rw [(h.of_mem (List.mem_cons_of_mem _ hd)).1]
    rfl
  have hstop : rest.takeWhile (!isDelimiter ·) = [] ∧ rest.dropWhile (!isDelimiter ·) = rest := by
    cases rest with
    | nil => exact ⟨rfl, rfl⟩
    | cons d ds => simp [hrest d (by simp)]
  rw [List.cons_append, tokens?, if_neg (by rw [hspace]; exact Bool.false_ne_true), hmark]
  simp only [if_neg hquote]
  rw [List.takeWhile_append_of_pos hcs, List.dropWhile_append_of_pos hcs, hstop.1, hstop.2,
    List.append_nil, h.reads]
  rfl

theorem readAs_scalar {v : Value} (hv : v.shape = .null ∨ v.shape = .scalar) :
    ReadAs (scalarText v) [.scalar v] := by
  by_cases hs : ∃ s, v = .string s
  · obtain ⟨s, rfl⟩ := hs
    exact readAs_quoted s
  · exact readAs_atom (isAtom_scalarText hv fun s hs' => hs ⟨s, hs'⟩)

/-! ## Collections -/

theorem delimited_break {style : Style} {depth : Nat} {rest : List Char} (h : Delimited rest) :
    Delimited (style.break depth ++ rest) := by
  rw [Style.break]
  split
  · exact delimited_cons rfl _
  · exact h

theorem tokens?_break (style : Style) (depth : Nat) (rest : List Char) :
    tokens? (style.break depth ++ rest) = tokens? rest :=
  tokens?_spaces (fun _ => isSpace_of_mem_break) rest

theorem readAs_rest (style : Style) (depth : Nat) {parts : List (List Char)}
    {tss : List (List Token)} (h : List.Forall₂ ReadAs parts tss) :
    ReadAs (parts.flatMap fun p => ',' :: style.break depth ++ p) (tss.flatMap (.comma :: ·)) := by
  induction h with
  | nil =>
    intro rest _
    cases h : tokens? rest <;> simp [h]
  | @cons part ts parts tss hpart _ ih =>
    intro rest hrest
    have hnext : Delimited ((parts.flatMap fun p => ',' :: style.break depth ++ p) ++ rest) := by
      cases parts with
      | nil => simpa using hrest
      | cons p ps => exact delimited_cons rfl _
    simp only [List.flatMap_cons, List.append_assoc, List.cons_append] at hnext ⊢
    rw [tokens?_mark rfl, tokens?_break, hpart _ hnext]
    have := ih rest hrest
    simp only [List.cons_append] at this
    rw [this]
    cases tokens? rest <;> simp

theorem readAs_enclosed {style : Style} {depth : Nat} {first last : Char} {opened closed : Token}
    (hf : punctuation? first = some opened) (hl : punctuation? last = some closed)
    {parts : List (List Char)} {tss : List (List Token)} (h : List.Forall₂ ReadAs parts tss) :
    ReadAs (style.enclosed depth first last parts) (opened :: separated tss ++ [closed]) := by
  intro rest _
  have hlast : isDelimiter last = true := by simp [isDelimiter, hl]
  cases h with
  | nil =>
    simp only [Style.enclosed, List.cons_append, List.nil_append, separated]
    rw [tokens?_mark hf, tokens?_mark hl]
    cases tokens? rest <;> rfl
  | @cons part ts parts tss hpart hparts =>
    have hend : Delimited (style.break depth ++ (last :: rest)) :=
      delimited_break (delimited_cons hlast rest)
    have hnext : Delimited ((parts.flatMap fun p => ',' :: style.break (depth + 1) ++ p) ++
        (style.break depth ++ (last :: rest))) := by
      cases parts with
      | nil => exact hend
      | cons p ps => exact delimited_cons rfl _
    have hparts := readAs_rest style (depth + 1) hparts _ hend
    simp only [Style.enclosed, separated, List.append_assoc, List.cons_append,
      List.nil_append] at hnext hparts ⊢
    rw [tokens?_mark hf, tokens?_break, hpart _ hnext, hparts, tokens?_break, tokens?_mark hl]
    cases tokens? rest <;> simp

/-! ## Values -/

theorem readAs_entry {style : Style} {k : String} {text : List Char} {ts : List Token}
    (h : ReadAs text ts) :
    ReadAs (quoted k ++ style.colon ++ text) (.scalar (.string k) :: .colon :: ts) := by
  intro rest hrest
  have hcolon : tokens? (style.colon ++ (text ++ rest)) =
      (tokens? (text ++ rest)).map (.colon :: ·) := by
    rw [Style.colon]
    split
    · rw [List.cons_append, tokens?_mark rfl, List.cons_append, tokens?_space rfl, List.nil_append]
    · exact tokens?_mark rfl _
  have hnext : Delimited (style.colon ++ (text ++ rest)) := by
    rw [Style.colon]
    split <;> exact delimited_cons rfl _
  rw [List.append_assoc, List.append_assoc, readAs_quoted k _ hnext, hcolon, h rest hrest]
  cases tokens? rest <;> rfl

theorem itemTokens_eq (xs : List Value) : itemTokens xs = xs.map tokens := by
  induction xs with
  | nil => rfl
  | cons x xs ih => rw [itemTokens, ih, List.map_cons]

theorem entryTokens_eq (es : Entries Value) :
    entryTokens es = es.map fun e => .scalar (.string e.1) :: .colon :: tokens e.2 := by
  induction es with
  | nil => rfl
  | cons e es ih =>
    obtain ⟨k, v⟩ := e
    rw [entryTokens, ih, List.map_cons]

/-- A value printed with its entries as they come is read as its tokens. -/
theorem readAs_text {style : Style} (hs : style.sorted = false) (v : Value) (depth : Nat) :
    ReadAs (style.text depth v) (tokens v) := by
  induction v generalizing depth with
  | array xs ih =>
    rw [Style.text, tokens, itemTexts_eq, itemTokens_eq]
    refine readAs_enclosed rfl rfl ?_
    rw [List.forall₂_map_left_iff, List.forall₂_map_right_iff, List.forall₂_same]
    exact fun x hx => ih x hx (depth + 1)
  | object es ih =>
    rw [Style.text, tokens, fieldTexts_eq, entryTokens_eq]
    refine readAs_enclosed rfl rfl ?_
    rw [Style.entryTexts, hs, if_neg Bool.false_ne_true, Entries.mapValues, List.map_map,
      List.forall₂_map_left_iff, List.forall₂_map_right_iff, List.forall₂_same]
    exact fun e he => readAs_entry (ih e he (depth + 1))
  | null => exact readAs_scalar (v := .null) (Or.inl rfl)
  | bool b => exact readAs_scalar (v := .bool b) (Or.inr rfl)
  | int n => exact readAs_scalar (v := .int n) (Or.inr rfl)
  | float x => exact readAs_scalar (v := .float x) (Or.inr rfl)
  | string s => exact readAs_scalar (v := .string s) (Or.inr rfl)

/-- Sorted keys are those of the ordered tree as they come. -/
theorem text_ordered {style : Style} (hs : style.sorted = true) (v : Value) (depth : Nat) :
    style.text depth v = Style.text ⟨false, style.lines⟩ depth v.ordered := by
  have hbreak (d : Nat) : style.break d = Style.break ⟨false, style.lines⟩ d := rfl
  have henclosed (d : Nat) (first last : Char) (parts : List (List Char)) :
      style.enclosed d first last parts =
        Style.enclosed ⟨false, style.lines⟩ d first last parts := by
    cases parts <;> rfl
  induction v generalizing depth with
  | array xs ih =>
    rw [Value.ordered_array, Style.text, Style.text, itemTexts_eq, itemTexts_eq, henclosed,
      List.map_map]
    exact congrArg _ (List.map_congr_left fun x hx => ih x hx (depth + 1))
  | object es ih =>
    rw [Value.ordered_object, Style.text, Style.text, fieldTexts_eq, fieldTexts_eq, henclosed,
      Entries.mapValues_sorted, Style.entryTexts, Style.entryTexts, hs, if_pos rfl,
      if_neg Bool.false_ne_true]
    have hvalues : Entries.mapValues (style.text (depth + 1)) es =
        Entries.mapValues (Style.text ⟨false, style.lines⟩ (depth + 1))
          (Entries.mapValues Value.ordered es) := by
      rw [Entries.mapValues, Entries.mapValues, Entries.mapValues, List.map_map]
      exact List.map_congr_left fun e he => congrArg _ (ih e he (depth + 1))
    rw [hvalues]
    rfl
  | _ => rfl

end Reconciliation.Json
