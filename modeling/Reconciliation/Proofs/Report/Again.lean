import Reconciliation.Proofs.Files.Frame
import Reconciliation.Proofs.Json.RoundTrip
import Reconciliation.Proofs.Lists
import Reconciliation.Proofs.Number.Magnitude
import Reconciliation.Proofs.State.Reconcile
import Reconciliation.Proofs.Traced
import Reconciliation.Proofs.Value.Order
import Reconciliation.Report.Writer

/-! # Reports that are written again

A report is written if cells take all its values and its file can be stored. If it says of a state
what it came from, then it can say as well that the state stayed as it was.
-/
namespace Reconciliation

open Value (SameTree)

namespace Sheet

def Accepts (v : Value) : Prop := ∃ w, cell v = .ok w ∧ isStorable w = true

theorem accepts_iff {v : Value} (h : ∀ s, v ≠ .string s) : Accepts v ↔ isStorable v = true := by
  have hcell : cell v = .ok v := by
    cases v <;> first | rfl | exact absurd rfl (h _)
  constructor
  · rintro ⟨w, hw, hs⟩
    rw [hcell] at hw
    rwa [Except.ok.inj hw]
  · exact fun hs => ⟨v, hcell, hs⟩

theorem accepts_string {s : String} (h : s.toList.any isForbidden = false) :
    Accepts (.string s) := by
  refine ⟨.string (String.ofList (s.toList.take cellLength)), ?_, rfl⟩
  rw [cell, if_neg]
  intro hany
  obtain ⟨c, hc, hbad⟩ := List.any_eq_true.mp hany
  rw [String.toList_ofList] at hc
  exact List.any_eq_false.mp h c (List.mem_of_mem_take hc) hbad

theorem accepts_plain {cs : List Char} (h : Json.Plain cs) : Accepts (.string (String.ofList cs)) := by
  refine accepts_string (List.any_eq_false.mpr fun c hc => ?_)
  rw [String.toList_ofList] at hc
  rcases h c hc with hlarge | rfl
  · simp [isForbidden, Nat.not_lt.mpr hlarge]
  · decide

theorem accepts_natCast {a b : Nat} (hab : a ≤ b) (h : Accepts (.int b)) : Accepts (.int a) := by
  rw [accepts_iff (by simp)] at h ⊢
  exact Binary64.ofInt?_isSome_mono hab h

/-- Rows become a sheet that can be stored if cells take all their values. -/
theorem ofRows_of_accepts {title : String} {rows : List (List Value)}
    (h : ∀ row ∈ rows, ∀ v ∈ row, Accepts v) :
    ∃ s, ofRows title rows = .ok s ∧ s.rows.all (fun row => row.all isStorable) = true := by
  have hrow : ∀ row ∈ rows, ∃ row',
      List.Forall₂ (fun v w => cell v = .ok w ∧ isStorable w = true) row row' :=
    fun row hr => Lists.exists_forall₂ (h row hr)
  obtain ⟨rows', hrows⟩ := Lists.exists_forall₂ hrow
  refine ⟨⟨title, rows'⟩, ?_, ?_⟩
  · refine Traced.except_bind.mpr ⟨rows', Traced.except_mapM.mpr (hrows.imp ?_), rfl⟩
    exact fun row row' hr => Traced.except_mapM.mpr (hr.imp fun _ _ hv => hv.1)
  · rw [List.all_eq_true]
    intro row' hrow'
    obtain ⟨row, -, hr⟩ := Lists.exists_left hrows hrow'
    rw [List.all_eq_true]
    intro w hw
    obtain ⟨v, -, hv⟩ := Lists.exists_left hr hw
    exact hv.2

theorem accepts_of_ofRows {title : String} {rows : List (List Value)} {s : Sheet}
    (h : ofRows title rows = .ok s) (hs : s.rows.all (fun row => row.all isStorable) = true) :
    ∀ row ∈ rows, ∀ v ∈ row, Accepts v := by
  obtain ⟨rows', hrows, h⟩ := Traced.except_bind.mp h
  obtain rfl := Except.ok.inj h
  intro row hrow v hv
  obtain ⟨row', hrow', hr⟩ := Lists.exists_right (Traced.except_mapM.mp hrows) hrow
  obtain ⟨w, hw, hvw⟩ := Lists.exists_right (Traced.except_mapM.mp hr) hv
  exact ⟨w, hvw, List.all_eq_true.mp (List.all_eq_true.mp hs row' hrow') w hw⟩

end Sheet

namespace Report

open Sheet (Accepts)

structure Accepted (changes : List PropertyChange) (info : RunInfo) (source : SchemaSource) :
    Prop where
  changeSheet : ∀ row ∈ changeRows changes, ∀ v ∈ row, Accepts v
  infoSheet : ∀ row ∈ infoRows info changes, ∀ v ∈ row, Accepts v
  schemaSheet : ∀ row ∈ schemaRows source, ∀ v ∈ row, Accepts v

section Save

variable {t : FileTree} {path : Path} {changes : List PropertyChange} {info : RunInfo}
  {source : SchemaSource}

theorem ok_workbook {sheets : Workbook} : workbook changes info source = .ok sheets ↔
    ∃ a b c, Sheet.ofRows "Changes" (changeRows changes) = .ok a ∧
      Sheet.ofRows "RunInfo" (infoRows info changes) = .ok b ∧
      Sheet.ofRows "Schema" (schemaRows source) = .ok c ∧ sheets = [a, b, c] := by
  rw [workbook, Traced.except_bind]
  constructor
  · rintro ⟨a, ha, h⟩
    rw [Traced.except_bind] at h
    obtain ⟨b, hb, h⟩ := h
    rw [Traced.except_bind] at h
    obtain ⟨c, hc, h⟩ := h
    exact ⟨a, b, c, ha, hb, hc, (Except.ok.inj h).symm⟩
  · rintro ⟨a, b, c, ha, hb, hc, rfl⟩
    refine ⟨a, ha, ?_⟩
    rw [hb, hc]
    rfl

/-- A report that is written has been accepted, and is stored. -/
theorem save_spec (h : (save t path changes info source).result = .ok ()) :
    Accepted changes info source ∧ ∃ sheets,
      (t.save path (.workbook sheets)).result = .ok () ∧
        (save t path changes info source).files = (t.save path (.workbook sheets)).files := by
  rw [save] at h ⊢
  cases hbook : workbook changes info source with
  | error e =>
    rw [hbook] at h
    cases h
  | ok sheets =>
    rw [hbook] at h
    dsimp only at h ⊢
    rw [Stored.andThen] at h ⊢
    cases hsaved : (t.save path (.workbook sheets)).result with
    | error e =>
      simp only [Stored.mapError, hsaved, Except.mapError] at h
      cases h
    | ok _ =>
      simp only [Stored.mapError, hsaved, Except.mapError] at h ⊢
      split at h
      · rename_i hstorable
        obtain ⟨a, b, c, ha, hb, hc, rfl⟩ := ok_workbook.mp hbook
        have hall := List.all_eq_true.mp hstorable
        refine ⟨⟨?_, ?_, ?_⟩, [a, b, c], hsaved, ?_⟩
        · exact Sheet.accepts_of_ofRows ha (hall _ (by simp))
        · exact Sheet.accepts_of_ofRows hb (hall _ (by simp))
        · exact Sheet.accepts_of_ofRows hc (hall _ (by simp))
        · rw [if_pos hstorable]
          rfl
      · cases h

theorem save_of_accepted (h : Accepted changes info source) {d : Document}
    (ht : t.Carries path d) : ∃ sheets, save t path changes info source =
      .done { t with documents := t.documents.set (t.place path) (.workbook sheets) } := by
  obtain ⟨a, ha, ha'⟩ := Sheet.ofRows_of_accepts h.changeSheet
  obtain ⟨b, hb, hb'⟩ := Sheet.ofRows_of_accepts h.infoSheet
  obtain ⟨c, hc, hc'⟩ := Sheet.ofRows_of_accepts h.schemaSheet
  have hbook := ok_workbook.mpr ⟨a, b, c, ha, hb, hc, rfl⟩
  have hstorable : isStorable [a, b, c] = true := by
    rw [isStorable, List.all_eq_true]
    intro s hs
    simp only [List.mem_cons, List.not_mem_nil, or_false] at hs
    rcases hs with rfl | rfl | rfl <;> assumption
  refine ⟨[a, b, c], ?_⟩
  rw [save, hbook]
  dsimp only
  rw [ht.replace]
  change (Stored.andThen (.done _) _) = _
  rw [Stored.andThen_done, if_pos hstorable]
  rfl

end Save

/-! ## No change -/

/-- What is shown of a value can be shown of it with its entries in another order. -/
theorem accepts_shown {v w : Value} (hvw : SameTree v w) (h : Accepts (shown w)) :
    Accepts (shown v) := by
  by_cases hv : v.shape = .null ∨ v.shape = .scalar
  · rwa [hvw.eq_of_shape hv]
  · cases v with
    | object es => exact Sheet.accepts_plain (Json.plain_text_value _ _ _)
    | array xs => exact Sheet.accepts_plain (Json.plain_text_value _ _ _)
    | _ => simp [Value.shape] at hv

theorem changeRow_change (p : Property) (before after : Entries Value) :
    changeRow (p.change before after) =
      [.string p.stateName,
        .string (p.status (Value.field before p.stateName) (Value.field after p.stateName)).name,
        if p.writeOnly then mask else shown (Value.field before p.stateName),
        if p.writeOnly then mask else shown (Value.field after p.stateName)] := by
  simp only [changeRow, Property.change, Property.status_eq_writeOnly]

theorem accepts_name (status : ChangeStatus) : Accepts (.string status.name) :=
  Sheet.accepts_string (by cases status <;> decide)

/-- If a report shows what a property has come to, it can show that it stays so. -/
theorem accepts_changeRow {p : Property} {before after before' after' : Entries Value}
    (hb : SameTree (.object before') (.object after))
    (ha : SameTree (.object after') (.object after))
    (h : ∀ v ∈ changeRow (p.change before after), Accepts v) :
    ∀ v ∈ changeRow (p.change before' after'), Accepts v := by
  rw [changeRow_change] at h ⊢
  have hname := h (.string p.stateName) (by simp)
  have hmerged := h _ (List.mem_cons_of_mem _ (List.mem_cons_of_mem _ (List.mem_cons_of_mem _
    (List.mem_singleton_self _))))
  intro v hv
  simp only [List.mem_cons, List.not_mem_nil, or_false] at hv
  rcases hv with rfl | rfl | rfl | rfl
  · exact hname
  · exact accepts_name _
  · by_cases hw : p.writeOnly = true
    · rwa [if_pos hw] at hmerged ⊢
    · rw [if_neg hw] at hmerged ⊢
      exact accepts_shown (hb.field _) hmerged
  · by_cases hw : p.writeOnly = true
    · rwa [if_pos hw] at hmerged ⊢
    · rw [if_neg hw] at hmerged ⊢
      exact accepts_shown (ha.field _) hmerged

/-! ## Points in time -/

theorem plain_digits (n : Nat) : Json.Plain (Nat.toDigits 10 n) := by
  intro c hc
  exact Or.inl (Json.toNat_of_isDigit ((Numeral.isDigits_toDigits n).2 c hc))

theorem plain_padded (width n : Nat) : Json.Plain (Timestamp.padded width n).toList := by
  rw [Timestamp.padded, String.toList_ofList]
  refine Json.plain_append (fun c hc => ?_) (plain_digits n)
  rw [(List.mem_replicate.mp hc).2]
  decide

theorem plain_join {a b : String} (ha : Json.Plain a.toList) (hb : Json.Plain b.toList) :
    Json.Plain (a ++ b).toList := by
  rw [String.toList_append]
  exact Json.plain_append ha hb

theorem plain_timestamp (t : Timestamp) : Json.Plain t.text.toList := by
  have hmark : ∀ s ∈ ["-", "T", ":", ".", "+00:00", ""], Json.Plain s.toList := by
    simp [Json.Plain]
  have hjoin {a : String} (ha : Json.Plain a.toList) {mark : String}
      (hm : mark ∈ ["-", "T", ":", ".", "+00:00", ""]) (width n : Nat) :
      Json.Plain (a ++ mark ++ Timestamp.padded width n).toList :=
    plain_join (plain_join ha (hmark mark hm)) (plain_padded width n)
  have hfraction : Json.Plain t.fraction.toList := by
    rw [Timestamp.fraction]
    split
    · exact hmark "" (by simp)
    · exact plain_join (hmark "." (by simp)) (plain_padded _ _)
  have hdate := hjoin (hjoin (plain_padded 4 t.year) (by simp : "-" ∈ _) 2 t.month)
    (by simp : "-" ∈ _) 2 t.day
  have hminute := hjoin (hjoin hdate (by simp : "T" ∈ _) 2 t.hour) (by simp : ":" ∈ _) 2 t.minute
  have htime := hjoin hminute (by simp : ":" ∈ _) 2 t.second
  exact plain_join (plain_join htime hfraction) (hmark "+00:00" (by simp))

/-! ## The whole report -/

theorem length_changes (s : Schema) (before after : Entries Value) :
    (s.changes before after).length = s.properties.length := List.length_map _

theorem accepts_countRows {changes changes' : List PropertyChange}
    (hlength : changes'.length ≤ changes.length) (h : Accepts (.int changes.length)) :
    ∀ row ∈ countRows changes', ∀ v ∈ row, Accepts v := by
  intro row hrow v hv
  obtain ⟨status, -, rfl⟩ := List.mem_map.mp hrow
  simp only [List.mem_cons, List.not_mem_nil, or_false] at hv
  rcases hv with rfl | rfl
  · exact Sheet.accepts_string (by cases status <;> decide)
  · exact Sheet.accepts_natCast (List.countP_le_length.trans hlength) h

variable {s : Schema} {before after before' after' : Entries Value} {info : RunInfo}
  {source : SchemaSource}

/-- The report of a run that changes nothing is accepted if the report of the change was. -/
theorem accepted_again (hb : SameTree (.object before') (.object after))
    (ha : SameTree (.object after') (.object after))
    (h : Accepted (s.changes before after) info source) (start : Timestamp) :
    Accepted (s.changes before' after') { info with start } source where
  changeSheet := by
    intro row hrow
    rcases List.mem_cons.mp hrow with rfl | hrow
    · exact h.changeSheet _ (List.mem_cons_self ..)
    · obtain ⟨_, hc, rfl⟩ := List.mem_map.mp hrow
      obtain ⟨p, hp, rfl⟩ := List.mem_map.mp hc
      have hrow : changeRow (p.change before after) ∈ changeRows (s.changes before after) :=
        List.mem_cons_of_mem _ (List.mem_map_of_mem (List.mem_map_of_mem hp))
      exact accepts_changeRow hb ha (h.changeSheet _ hrow)
  infoSheet := by
    have hlength := (length_changes s before after).trans (length_changes s before' after').symm
    have hkept : ∀ row ∈ (infoRows info (s.changes before after)).tail, ∀ v ∈ row, Accepts v :=
      fun row hrow => h.infoSheet row (List.mem_of_mem_tail hrow)
    have hcount : Accepts (.int (s.changes before after).length) :=
      hkept [.string "properties", .int (s.changes before after).length] (by simp [infoRows]) _
        (by simp)
    intro row hrow
    rw [infoRows, List.mem_append] at hrow
    rcases hrow with hrow | hrow
    · rcases List.mem_cons.mp hrow with rfl | hrow
      · intro v hv
        simp only [List.mem_cons, List.not_mem_nil, or_false] at hv
        rcases hv with rfl | rfl
        · exact Sheet.accepts_string (by decide)
        · have hplain := Sheet.accepts_plain (plain_timestamp start)
          rwa [String.ofList_toList] at hplain
      · refine hkept row (List.mem_append_left _ ?_)
        rw [hlength]
        exact hrow
    · exact accepts_countRows hlength.ge hcount row hrow
  schemaSheet := h.schemaSheet

end Report

end Reconciliation
