import Reconciliation.Proofs.Merge.Arrangement
import Reconciliation.Proofs.State.Reconcile

/-! # Reading the same payload again

What a read stores for a property is what the next read of the same payload stores, if lists are
arranged again as they were and sets find their elements again.
-/
namespace Reconciliation

open Merge
open Value (SameTree)
open Schema (SameValues SameUpdate)
open Traced (Related)

namespace Property

def arrangedFor (p : Property) (remote stored : Value) : Value :=
  if p.shouldIgnoreOrder then .array (arranged p.sameItem stored.items remote.items) else remote

structure Settled (p : Property) (remote stored : Value) : Prop where
  list : p.writeOnly = false → p.shouldIgnoreOrder = true →
    ∃ n, p.ArrangesAgain n remote.items stored.items
  sets : p.Along SetSettled (p.arrangedFor remote stored) stored

variable {p : Property} {remote stored v : Value}

section List

variable (hn : p.Throughout NamesDistinct) (hp : p.shouldIgnoreOrder = true)
  (hw : p.writeOnly = false) {rs : List Value}
  (hs : p.Along SetSettled (.array (arranged p.sameItem stored.items rs)) stored)
  (h : (coerce p (.array (arranged p.sameItem stored.items rs)) stored).result = .ok v)
include hn hp hw hs h

/-- A list that has been arranged and merged is arranged and merged into the same list. -/
theorem coerce_arranged_again (hk : ∀ r ∈ rs, r.keysDistinct = true)
    (hf : ∀ r ∈ rs, r.nanFree = true) {n : Nat} (ha : p.ArrangesAgain n rs stored.items) :
    ∃ vs ws, v = .array vs ∧ SameTree (.array ws) (.array vs) ∧
      (coerce p (.array (arranged p.sameItem vs rs)) (.array vs)).result = .ok (.array ws) := by
  have hkind := kind_of_shouldIgnoreOrder hp
  have hbelow := (hs.cases hw).2
  rw [met, hkind] at hbelow
  rw [coerce_list hkind hw] at h
  by_cases he : p.element.isSome = true
  · rw [if_pos he] at h
    obtain ⟨_, vs, hrs, hvs, rfl⟩ := ok_mergeList.mp h
    obtain rfl := Except.ok.inj hrs
    refine ⟨vs, vs, rfl, SameTree.refl _, ?_⟩
    rw [coerce_list hkind hw, if_pos he]
    exact ok_mergeList.mpr ⟨_, vs, rfl, paired_arranged_again hn he hk hf ha hbelow hvs, rfl⟩
  · rw [if_neg he] at h
    split at h
    · rename_i hitem
      obtain rfl := Except.ok.inj h
      refine ⟨_, _, rfl, sameTree_arranged_again he hk hf ha, ?_⟩
      rw [coerce_list hkind hw, if_neg he, if_pos hitem]
      rfl
    · cases h

end List

theorem update_list_again (hn : p.Throughout NamesDistinct) (hk : remote.keysDistinct = true)
    (hf : remote.nanFree = true) (hp : p.shouldIgnoreOrder = true) (hw : p.writeOnly = false)
    (hs : p.Settled remote stored)
    (h : (p.update .stored remote stored).result = .ok (some v)) :
    ∃ w, (p.update .stored remote v).result = .ok (some w) ∧ SameTree w v := by
  obtain ⟨hstored, rs, rfl⟩ := ok_update_some hp hw h
  have hsets := hs.sets
  rw [arrangedFor, if_pos hp] at hsets
  change p.Along SetSettled (.array (arranged p.sameItem stored.items rs)) stored at hsets
  rw [update_array hp hstored] at h
  obtain ⟨m, hm, h⟩ := Traced.ok_bind.mp h
  cases hnull : m.isNull <;> rw [hnull] at h <;> cases h
  obtain ⟨n, ha⟩ := hs.list hw hp
  obtain ⟨vs, ws, rfl, hsame, hm'⟩ := coerce_arranged_again hn hp hw hsets hm
    (Value.keysDistinct_array.mp hk) (Value.nanFree_array.mp hf) ha
  refine ⟨.array ws, ?_, hsame⟩
  rw [update_array hp (Or.inr ⟨vs, rfl⟩)]
  exact Traced.ok_bind.mpr ⟨.array ws, hm', rfl⟩

/-- What a read stores for a property, the next read stores again. -/
theorem update_again (hn : p.Throughout NamesDistinct) (hk : remote.keysDistinct = true)
    (hf : remote.nanFree = true) (hs : p.Settled remote stored)
    (h : (p.update .stored remote stored).result = .ok (some v)) :
    ∃ w, (p.update .stored remote v).result = .ok (some w) ∧ SameTree w v := by
  by_cases hw : p.writeOnly = true
  · -- The value stored is the one that was there, so the same update is made again.
    rcases update_writeOnly hw h with hnone | ⟨hsome, -⟩
    · cases hnone
    · obtain rfl := Option.some.inj hsome
      exact ⟨_, h, SameTree.refl _⟩
  by_cases hp : p.shouldIgnoreOrder = true
  · exact update_list_again hn hk hf hp (eq_false_of_ne_true hw) hs h
  · have hsets := hs.sets
    rw [arrangedFor, if_neg hp] at hsets
    have hignore := eq_false_of_ne_true hp
    rw [update_plain (Or.inr hignore)] at h ⊢
    obtain ⟨m, hm, hu⟩ := Traced.ok_bind.mp h
    cases hnull : m.isNull <;> rw [hnull] at hu <;> cases hu
    refine ⟨v, Traced.ok_bind.mpr ⟨v, coerce_again hn hsets v hm, ?_⟩, SameTree.refl _⟩
    rw [hnull]
    rfl

end Property

namespace Schema

variable {s : Schema} {payload : Entries Value} {values values' : Entries Value}

def Settled (s : Schema) (payload values : Entries Value) : Prop :=
  ∀ name remote p, (name, remote) ∈ payload → s.find? name = some p →
    p.stateName ∉ reservedNames → p.Settled remote (Value.field values p.stateName)

theorem mergeProperty_again (hd : s.Distinct) (hk : Value.keysDistinct (.object payload) = true)
    (hf : Value.nanFree (.object payload) = true) (hs : s.Settled payload values)
    (h : (s.mergeEntries .stored payload values).result = .ok values') {name : String}
    {remote : Value} (he : (name, remote) ∈ payload) {current : Entries Value}
    (hc : SameValues current values') :
    ∃ next, (s.mergeProperty .stored current name remote).result = .ok next ∧
      SameValues next values' := by
  cases hfind : s.find? name with
  | none => exact ⟨current, mergeProperty_undeclared hfind current remote, hc⟩
  | some p =>
    by_cases hr : p.stateName ∈ reservedNames
    · refine ⟨current, ?_, hc⟩
      rw [mergeProperty_reserved hfind hr]
      rfl
    obtain ⟨u, hu, hget⟩ :=
      mergeEntries_get? hd.top (Value.keysDistinct_object.mp hk).1 h he hfind hr
    have hrelated : Related SameUpdate (p.update .stored remote (Value.field values' p.stateName))
        (p.update .stored remote (Value.field current p.stateName)) :=
      update_related p remote (hc.tree.symm.field p.stateName)
    rw [mergeProperty_declared hfind hr, map_eq_pure_bind]
    cases u with
    | none =>
      have hfield : Value.field values' p.stateName = Value.field values p.stateName := by
        rw [Value.field, hget]
        rfl
      rw [hfield] at hrelated
      obtain ⟨b, hb, hsame⟩ := hrelated.result_ok hu
      cases hsame
      exact ⟨current, Traced.ok_bind.mpr ⟨none, hb, rfl⟩, hc⟩
    | some m =>
      have hm : values'.get? p.stateName = some m := hget
      have hfield : Value.field values' p.stateName = m := by
        rw [Value.field, hm]
        rfl
      have hremote := (Value.keysDistinct_object.mp hk).2 _ he
      have hnan := Value.nanFree_object.mp hf _ he
      obtain ⟨w, hw, hwm⟩ := Property.update_again (hd.below p (find?_spec hfind).1) hremote hnan
        (hs name remote p he hfind hr) hu
      rw [hfield] at hrelated
      obtain ⟨b, hb, hsame⟩ := hrelated.result_ok hw
      cases hsame with
      | some hww' =>
        refine ⟨_, Traced.ok_bind.mpr ⟨_, hb, rfl⟩, ?_⟩
        have hset := hc.set p.stateName (hww'.symm.trans hwm)
        rwa [Entries.set_of_get? hm] at hset

/-- A payload read again changes nothing but the order of entries. -/
theorem mergeEntries_again (hd : s.Distinct) (hk : Value.keysDistinct (.object payload) = true)
    (hf : Value.nanFree (.object payload) = true) (hs : s.Settled payload values)
    (h : (s.mergeEntries .stored payload values).result = .ok values')
    {current : Entries Value} (hc : SameValues current values') :
    ∃ next, (s.mergeEntries .stored payload current).result = .ok next ∧
      SameValues next values' := by
  suffices ∀ es : List (String × Value), (∀ e ∈ es, e ∈ payload) → ∀ current : Entries Value,
      SameValues current values' → ∃ next, (s.mergeEntries .stored es current).result = .ok next ∧
        SameValues next values' from this payload (fun _ h => h) current hc
  intro es
  induction es with
  | nil => exact fun _ current hc => ⟨current, rfl, hc⟩
  | cons e es ih =>
    intro hes current hc
    obtain ⟨name, remote⟩ := e
    obtain ⟨next, hnext, hsame⟩ := mergeProperty_again hd hk hf hs h (hes (name, remote) (by simp)) hc
    obtain ⟨last, hlast, hsame'⟩ := ih (fun e he => hes e (List.mem_cons_of_mem _ he)) next hsame
    exact ⟨last, Traced.ok_bind.mpr ⟨next, hnext, hlast⟩, hsame'⟩

theorem changes_same (hk : Value.keysDistinct (.object values) = true)
    (hf : Value.nanFree (.object values) = true) {before after : Entries Value}
    (hb : SameValues before values) (ha : SameValues after values) :
    (s.changes before after).filter PropertyChange.isChange = [] := by
  rw [List.filter_eq_nil_iff]
  intro c hc
  obtain ⟨p, -, rfl⟩ := List.mem_map.mp hc
  have hbefore := hb.tree.field p.stateName
  have hafter := ha.tree.field p.stateName
  have hequals : (Value.field before p.stateName).equals (Value.field after p.stateName) = true := by
    rw [hbefore.equals hafter]
    exact Value.equals_refl (Value.everywhere_field rfl (Value.keysDistinct_object.mp hk).2 _)
      (Value.everywhere_field rfl (Value.nanFree_object.mp hf) _)
  by_cases hw : p.writeOnly = true
  · simp [PropertyChange.isChange, Property.change, Property.status, hw]
  · rw [Property.isChange_iff (eq_false_of_ne_true hw), hequals]
    intro h
    cases h

end Schema

end Reconciliation
