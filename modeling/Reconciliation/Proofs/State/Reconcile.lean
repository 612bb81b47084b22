import Reconciliation.Proofs.Merge.Order
import Reconciliation.Proofs.Merge.Preservation
import Reconciliation.State.Changes

/-! # Reading a payload, property by property

Each declared property of a payload writes at most its own state name, and what it writes depends
only on what is stored there.
-/
namespace Reconciliation

open Value (SameTree everywhere)
open Traced (Related)

/-- What a property of a payload writes, if anything. -/
def Property.update (order : ListOrder) (p : Property) (remote stored : Value) :
    Merged (Option Value) := do
  match ← Traced.ofExcept (Schema.arrangedRemote order p remote stored) with
  | none => pure none
  | some remote => do
    let merged ← Merge.coerce p remote stored
    pure (if merged.isNull then none else some merged)

theorem Property.update_plain {order : ListOrder} {p : Property}
    (h : order = .received ∨ p.shouldIgnoreOrder = false) (remote stored : Value) :
    p.update order remote stored = Merge.coerce p remote stored >>= fun merged =>
      pure (if merged.isNull then none else some merged) := by
  have hplain : Schema.arrangedRemote order p remote stored = .ok (some remote) := by
    rcases h with rfl | h
    · rfl
    · simp [Schema.arrangedRemote, h]
  rw [update, hplain, Traced.ofExcept_ok_bind]

theorem Property.update_writeOnly {order : ListOrder} {p : Property} (hw : p.writeOnly = true)
    {remote stored : Value} {u : Option Value}
    (h : (p.update order remote stored).result = .ok u) :
    u = none ∨ u = some stored ∧ stored.isNull = false := by
  obtain ⟨a, -, h⟩ := Traced.ok_bind.mp h
  cases a with
  | none => exact Or.inl (Except.ok.inj h).symm
  | some r =>
    obtain ⟨m, hm, h⟩ := Traced.ok_bind.mp h
    rw [coerce_writeOnly hw] at hm
    obtain rfl := Except.ok.inj hm
    rw [← Except.ok.inj h]
    split
    · exact Or.inl rfl
    · rename_i hnull
      exact Or.inr ⟨rfl, eq_false_of_ne_true hnull⟩

/-! ## Lists whose order carries no meaning -/

namespace Property

open Merge

theorem arranged_nil (same : Value → Value → Bool) (remote : List Value) :
    arranged same [] remote = remote := by
  simp [arranged]

theorem kind_of_shouldIgnoreOrder {p : Property} (hp : p.shouldIgnoreOrder = true) :
    p.kind = .list := by
  rw [shouldIgnoreOrder, Bool.and_eq_true] at hp
  simpa using hp.1

theorem update_array {p : Property} (hp : p.shouldIgnoreOrder = true) {stored : Value}
    (hs : stored = .null ∨ ∃ xs, stored = .array xs) (remote : List Value) :
    p.update .stored (.array remote) stored =
      coerce p (.array (arranged p.sameItem stored.items remote)) stored >>= fun merged =>
        pure (if merged.isNull then none else some merged) := by
  have harranged : Schema.arrangedRemote .stored p (.array remote) stored =
      .ok (some (.array (arranged p.sameItem stored.items remote))) := by
    rcases hs with rfl | ⟨xs, rfl⟩
    · simp [Schema.arrangedRemote, reorder, hp, Value.isNull, Value.items, arranged_nil,
        Except.map]
    · simp [Schema.arrangedRemote, reorder, hp, Value.isNull, Value.items, arrayItems]
      rfl
  rw [update, harranged, Traced.ofExcept_ok_bind]

theorem array_of_coerce {p : Property} (hk : p.kind = .list) (hw : p.writeOnly = false)
    {remote stored v : Value} (hr : remote.isNull = false)
    (h : (coerce p remote stored).result = .ok v) : ∃ xs, remote = .array xs := by
  cases ok_coerce.mp h with
  | writeOnly hw' =>
    rw [hw] at hw'
    cases hw'
  | list _ _ _ h =>
    obtain ⟨rs, -, hrs, -⟩ := ok_mergeList.mp h
    unfold remoteItems at hrs
    split at hrs
    · cases hr
    · exact ⟨_, rfl⟩
    · cases hrs
  | primitives _ _ _ _ h =>
    unfold primitives at h
    split at h
    · cases hr
    · exact ⟨_, rfl⟩
    · cases h
  | object _ hk' =>
    rw [hk] at hk'
    cases hk'
  | set _ hk' =>
    rw [hk] at hk'
    cases hk'
  | scalar _ hk' =>
    rw [hk] at hk'
    cases hk'

/-- What is merged for such a list is an array, and so is what is stored, if anything. -/
theorem ok_update_some {p : Property} (hp : p.shouldIgnoreOrder = true) (hw : p.writeOnly = false)
    {remote stored v : Value} (h : (p.update .stored remote stored).result = .ok (some v)) :
    (stored = .null ∨ ∃ xs, stored = .array xs) ∧ ∃ rs, remote = .array rs := by
  have hk := kind_of_shouldIgnoreOrder hp
  obtain ⟨a, ha, h⟩ := Traced.ok_bind.mp h
  change Schema.arrangedRemote .stored p remote stored = .ok a at ha
  rw [Schema.arrangedRemote, hp, if_pos (by simp)] at ha
  cases hr : remote.isNull with
  | true =>
    rw [hr, if_pos rfl] at ha
    obtain rfl := Except.ok.inj ha
    cases h
  | false =>
    rw [hr, if_neg Bool.false_ne_true] at ha
    cases hs : stored.isNull with
    | true =>
      have hnull : stored = .null := by
        cases stored <;> first | rfl | cases hs
      rw [reorder, hs, if_pos rfl] at ha
      obtain rfl := Except.ok.inj ha
      obtain ⟨m, hm, -⟩ := Traced.ok_bind.mp h
      exact ⟨Or.inl hnull, array_of_coerce hk hw hr hm⟩
    | false =>
      rw [reorder, hs, hr, hp] at ha
      cases stored with
      | array xs =>
        cases remote with
        | array rs => exact ⟨Or.inr ⟨xs, rfl⟩, rs, rfl⟩
        | _ => cases ha
      | _ => cases ha

end Property

namespace Schema

def updated (values : Entries Value) (key : String) : Option Value → Entries Value
  | none => values
  | some v => values.set key v

theorem get?_updated (values : Entries Value) (key : String) (u : Option Value) (k : String) :
    (updated values key u).get? k = if k = key then u.or (values.get? k) else values.get? k := by
  cases u with
  | none => simp [updated]
  | some v =>
    rw [updated, Entries.get?_set]
    simp

variable {s : Schema} {order : ListOrder}

theorem mergeProperty_undeclared {name : String} (h : s.find? name = none)
    (values : Entries Value) (remote : Value) :
    (s.mergeProperty order values name remote).result = .ok values := by
  rw [mergeProperty, h]
  rfl

theorem mergeProperty_reserved {name : String} {p : Property} (h : s.find? name = some p)
    (hr : p.stateName ∈ reservedNames) (values : Entries Value) (remote : Value) :
    s.mergeProperty order values name remote = pure values := by
  simp only [mergeProperty, h, if_pos hr]

theorem mergeProperty_declared {name : String} {p : Property} (h : s.find? name = some p)
    (hr : p.stateName ∉ reservedNames) (values : Entries Value) (remote : Value) :
    s.mergeProperty order values name remote =
      updated values p.stateName <$>
        p.update order remote (Value.field values p.stateName) := by
  simp only [mergeProperty, h, if_neg hr, Property.update, map_bind]
  refine congrArg _ (funext fun a => ?_)
  cases a with
  | none => rfl
  | some r =>
    simp only [map_bind]
    refine congrArg _ (funext fun m => ?_)
    cases hm : m.isNull <;> rfl

theorem mergeEntries_append (es fs : List (String × Value)) (values : Entries Value) :
    s.mergeEntries order (es ++ fs) values =
      s.mergeEntries order es values >>= s.mergeEntries order fs := by
  induction es generalizing values with
  | nil => rfl
  | cons e es ih =>
    obtain ⟨name, remote⟩ := e
    rw [List.cons_append, mergeEntries, mergeEntries, bind_assoc]
    exact congrArg _ (funext ih)

theorem find?_spec {name : String} {p : Property} (h : s.find? name = some p) :
    p ∈ s.properties ∧ p.name = name := by
  refine ⟨List.mem_of_find?_eq_some h, ?_⟩
  simpa using List.find?_some h

theorem stateName_ne (hn : (s.properties.map Property.stateName).Nodup) {name name' : String}
    {p q : Property} (hp : s.find? name = some p) (hq : s.find? name' = some q)
    (hne : name ≠ name') : p.stateName ≠ q.stateName := by
  intro heq
  obtain ⟨hps, rfl⟩ := find?_spec hp
  obtain ⟨hqs, rfl⟩ := find?_spec hq
  exact hne (congrArg Property.name (List.inj_on_of_nodup_map hn hps hqs heq))

/-- One property of a payload leaves the other state names alone. -/
theorem mergeProperty_frame {values values' : Entries Value} {name : String} {remote : Value}
    (h : (s.mergeProperty order values name remote).result = .ok values') {k : String}
    (hk : ∀ p, s.find? name = some p → p.stateName ∉ reservedNames → p.stateName ≠ k) :
    values'.get? k = values.get? k := by
  cases hf : s.find? name with
  | none =>
    rw [mergeProperty_undeclared hf] at h
    rw [Except.ok.inj h]
  | some p =>
    by_cases hr : p.stateName ∈ reservedNames
    · rw [mergeProperty_reserved hf hr] at h
      rw [Except.ok.inj h]
    · rw [mergeProperty_declared hf hr, map_eq_pure_bind] at h
      obtain ⟨u, -, h⟩ := Traced.ok_bind.mp h
      rw [← Except.ok.inj h, get?_updated, if_neg (Ne.symm (hk p hf hr))]

theorem mergeEntries_frame {es : List (String × Value)} {values values' : Entries Value}
    (h : (s.mergeEntries order es values).result = .ok values') {k : String}
    (hk : ∀ e ∈ es, ∀ p, s.find? e.1 = some p → p.stateName ∉ reservedNames → p.stateName ≠ k) :
    values'.get? k = values.get? k := by
  induction es generalizing values with
  | nil => rw [Except.ok.inj h]
  | cons e es ih =>
    obtain ⟨name, remote⟩ := e
    obtain ⟨next, hnext, h⟩ := Traced.ok_bind.mp h
    rw [ih h fun e he => hk e (List.mem_cons_of_mem _ he),
      mergeProperty_frame hnext (hk (name, remote) (by simp))]

theorem mergeEntries_get? (hn : (s.properties.map Property.stateName).Nodup)
    {es : List (String × Value)} (hes : (Entries.keys es).Nodup)
    {values values' : Entries Value} (h : (s.mergeEntries order es values).result = .ok values')
    {name : String} {remote : Value} (he : (name, remote) ∈ es) {p : Property}
    (hp : s.find? name = some p) (hr : p.stateName ∉ reservedNames) :
    ∃ u, (p.update order remote (Value.field values p.stateName)).result = .ok u ∧
      values'.get? p.stateName = u.or (values.get? p.stateName) := by
  induction es generalizing values with
  | nil => cases he
  | cons e es ih =>
    obtain ⟨name', remote'⟩ := e
    obtain ⟨hnot, hrest⟩ := List.nodup_cons.mp hes
    obtain ⟨next, hnext, hmore⟩ := Traced.ok_bind.mp h
    rcases List.mem_cons.mp he with heq | he
    · obtain ⟨rfl, rfl⟩ := Prod.mk.inj heq
      rw [mergeProperty_declared hp hr, map_eq_pure_bind] at hnext
      obtain ⟨u, hu, hwrite⟩ := Traced.ok_bind.mp hnext
      refine ⟨u, hu, ?_⟩
      have hkeep : values'.get? p.stateName = next.get? p.stateName := by
        refine mergeEntries_frame hmore fun e he q hq _ => stateName_ne hn hq hp ?_
        intro heq
        exact hnot (List.mem_map.mpr ⟨e, he, heq⟩)
      rw [hkeep, ← Except.ok.inj hwrite, get?_updated, if_pos rfl]
    · have hne : name' ≠ name := by
        intro heq
        exact hnot (List.mem_map.mpr ⟨_, he, heq.symm⟩)
      have hkeep : next.get? p.stateName = values.get? p.stateName :=
        mergeProperty_frame hnext fun q hq _ => stateName_ne hn hq hp hne
      have hih := ih hrest hmore he
      rwa [Value.field, hkeep] at hih

/-! ## Values that are the same tree -/

structure SameValues (values values' : Entries Value) : Prop where
  nodup : values.keys.Nodup
  nodup' : values'.keys.Nodup
  tree : SameTree (.object values) (.object values')

theorem SameValues.set {values values' : Entries Value} (h : SameValues values values')
    (key : String) {v w : Value} (hvw : SameTree v w) :
    SameValues (values.set key v) (values'.set key w) where
  nodup := Entries.nodup_set h.nodup key v
  nodup' := Entries.nodup_set h.nodup' key w
  tree := by
    refine SameTree.object (Entries.nodup_set h.nodup key v) (Entries.nodup_set h.nodup' key w) ?_
    intro k
    rw [Entries.get?_set, Entries.get?_set]
    split
    · exact congrArg some hvw
    · exact h.tree.get? k

theorem arrangedRemote_trees (p : Property) (remote : Value) {stored stored' : Value}
    (h : SameTree stored stored') :
    arrangedRemote order p remote stored = arrangedRemote order p remote stored' := by
  rw [arrangedRemote, arrangedRemote]
  split
  · split
    · rfl
    · rename_i hr
      rw [Property.reorder_trees p h (eq_false_of_ne_true hr)]
  · rfl

inductive SameUpdate : Option Value → Option Value → Prop
  | none : SameUpdate none none
  | some {v w : Value} (h : SameTree v w) : SameUpdate (some v) (some w)

theorem update_related (p : Property) (remote : Value) {stored stored' : Value}
    (h : SameTree stored stored') :
    Related SameUpdate (p.update order remote stored) (p.update order remote stored') := by
  rw [Property.update, Property.update, arrangedRemote_trees p remote h]
  apply Related.bind_same
  intro a
  cases a with
  | none => exact Related.pure .none
  | some r =>
    refine (p.coerce_related r _ _ h).bind fun v w hvw => Related.pure ?_
    rw [hvw.isNull]
    split
    · exact .none
    · exact .some hvw

theorem mergeProperty_related {values values' : Entries Value} (h : SameValues values values')
    (name : String) (remote : Value) :
    Related SameValues (s.mergeProperty order values name remote)
      (s.mergeProperty order values' name remote) := by
  cases hf : s.find? name with
  | none =>
    simp only [mergeProperty, hf]
    exact Related.bind_same fun _ => Related.pure h
  | some p =>
    by_cases hr : p.stateName ∈ reservedNames
    · rw [mergeProperty_reserved hf hr, mergeProperty_reserved hf hr]
      exact Related.pure h
    · rw [mergeProperty_declared hf hr, mergeProperty_declared hf hr, map_eq_pure_bind,
        map_eq_pure_bind]
      refine (update_related p remote (h.tree.field p.stateName)).bind fun u u' hu =>
        Related.pure ?_
      cases hu with
      | none => exact h
      | some hvw => exact h.set _ hvw

theorem mergeEntries_related (es : List (String × Value)) {values values' : Entries Value}
    (h : SameValues values values') :
    Related SameValues (s.mergeEntries order es values) (s.mergeEntries order es values') := by
  induction es generalizing values values' with
  | nil => exact Related.pure h
  | cons e es ih =>
    obtain ⟨name, remote⟩ := e
    exact (mergeProperty_related h name remote).bind fun _ _ hnext => ih hnext

theorem updated_everywhere {test : Value → Bool} {values : Entries Value} (hn : values.keys.Nodup)
    (h : ∀ e ∈ values, everywhere test e.2 = true) (key : String) {u : Option Value}
    (hu : ∀ v ∈ u, everywhere test v = true) :
    (updated values key u).keys.Nodup ∧
      ∀ e ∈ updated values key u, everywhere test e.2 = true := by
  cases u with
  | none => exact ⟨hn, h⟩
  | some v =>
    refine ⟨Entries.nodup_set hn key v, fun e he => ?_⟩
    rcases Entries.mem_set he with rfl | he
    · exact hu v rfl
    · exact h e he

theorem arrangedRemote_everywhere {test : Value → Bool} (ht : Value.Inherited test)
    {p : Property} {remote stored r : Value} (hr : everywhere test remote = true)
    (h : arrangedRemote order p remote stored = .ok (some r)) : everywhere test r = true := by
  rw [arrangedRemote] at h
  split at h
  · split at h
    · cases h
    · rename_i hnull
      by_cases hstored : stored.isNull = true
      · rw [Property.reorder, if_pos hstored] at h
        exact Option.some.inj (Except.ok.inj h) ▸ hr
      · rw [Property.reorder, if_neg hstored, if_neg hnull] at h
        split at h
        · exact Option.some.inj (Except.ok.inj h) ▸ hr
        · cases hs : Merge.arrayItems p.name stored with
          | error e => rw [hs] at h; cases h
          | ok ss =>
            cases remote with
            | array rs =>
              rw [hs] at h
              obtain rfl := Option.some.inj (Except.ok.inj h)
              exact Value.everywhere_array.mpr ⟨ht.array _, fun x hx =>
                (Value.everywhere_array.mp hr).2 x (Merge.mem_of_mem_arranged hx)⟩
            | _ => rw [hs] at h; cases h
  · exact Option.some.inj (Except.ok.inj h) ▸ hr

theorem update_everywhere {test : Value → Bool} (ht : Value.Inherited test) {p : Property}
    {remote stored : Value} (hr : everywhere test remote = true)
    (hs : everywhere test stored = true) {u : Option Value}
    (h : (p.update order remote stored).result = .ok u) : ∀ v ∈ u, everywhere test v = true := by
  obtain ⟨a, ha, h⟩ := Traced.ok_bind.mp h
  cases a with
  | none => simp [← Except.ok.inj h]
  | some r =>
    obtain ⟨m, hm, h⟩ := Traced.ok_bind.mp h
    rintro v hv
    rw [← Except.ok.inj h] at hv
    split at hv
    · cases hv
    · obtain rfl := Option.some.inj hv
      exact p.coerce_inherits ht r stored m (arrangedRemote_everywhere ht hr ha) hs hm

theorem mergeEntries_everywhere {test : Value → Bool} (ht : Value.Inherited test)
    {es : List (String × Value)} (hes : ∀ e ∈ es, everywhere test e.2 = true)
    {values values' : Entries Value} (hn : values.keys.Nodup)
    (hv : ∀ e ∈ values, everywhere test e.2 = true)
    (h : (s.mergeEntries order es values).result = .ok values') :
    values'.keys.Nodup ∧ ∀ e ∈ values', everywhere test e.2 = true := by
  induction es generalizing values with
  | nil => exact Except.ok.inj h ▸ ⟨hn, hv⟩
  | cons e es ih =>
    obtain ⟨name, remote⟩ := e
    obtain ⟨next, hnext, h⟩ := Traced.ok_bind.mp h
    have hstep : next.keys.Nodup ∧ ∀ e ∈ next, everywhere test e.2 = true := by
      cases hf : s.find? name with
      | none =>
        rw [mergeProperty_undeclared hf] at hnext
        exact Except.ok.inj hnext ▸ ⟨hn, hv⟩
      | some p =>
        by_cases hr : p.stateName ∈ reservedNames
        · rw [mergeProperty_reserved hf hr] at hnext
          exact Except.ok.inj hnext ▸ ⟨hn, hv⟩
        · rw [mergeProperty_declared hf hr, map_eq_pure_bind] at hnext
          obtain ⟨u, hu, hnext⟩ := Traced.ok_bind.mp hnext
          rw [← Except.ok.inj hnext]
          exact updated_everywhere hn hv _
            (update_everywhere ht (hes (name, remote) (by simp)) (Value.everywhere_field ht.null hv _) hu)
    exact ih (fun e he => hes e (List.mem_cons_of_mem _ he)) hstep.1 hstep.2 h

end Schema

/-! ## Changes -/

namespace Property

inductive HasStatus (p : Property) (before after : Value) : ChangeStatus → Prop
  | writeOnly (hw : p.writeOnly = true) : HasStatus p before after .writeOnly
  | added (hw : p.writeOnly = false) (hb : before.isNull = true) (ha : after.isNull = false) :
    HasStatus p before after .added
  | removed (hw : p.writeOnly = false) (hb : before.isNull = false) (ha : after.isNull = true) :
    HasStatus p before after .removed
  | unchanged (hw : p.writeOnly = false) (h : before.equals after = true) :
    HasStatus p before after .unchanged
  | updated (hw : p.writeOnly = false) (hb : before.isNull = false) (ha : after.isNull = false)
    (h : before.equals after = false) : HasStatus p before after .updated

theorem hasStatus (p : Property) (before after : Value) :
    p.HasStatus before after (p.status before after) := by
  rw [status]
  by_cases hw : p.writeOnly = true
  · rw [if_pos hw]
    exact .writeOnly hw
  rw [if_neg hw]
  have hw := eq_false_of_ne_true hw
  by_cases heq : before.equals after = true
  · rw [Value.isNull_of_equals heq, heq, if_neg (by simp), if_neg (by simp), if_pos rfl]
    exact .unchanged hw heq
  · have heq := eq_false_of_ne_true heq
    rw [heq]
    cases hb : before.isNull with
    | true =>
      cases ha : after.isNull with
      | true =>
        rw [Value.isNull_iff.mp hb, Value.isNull_iff.mp ha] at heq
        cases heq
      | false => exact .added hw hb ha
    | false =>
      cases ha : after.isNull with
      | true => exact .removed hw hb ha
      | false => exact .updated hw hb ha heq

theorem status_eq_writeOnly {p : Property} {before after : Value} :
    p.status before after = .writeOnly ↔ p.writeOnly = true := by
  have h := p.hasStatus before after
  constructor
  · intro hs
    rw [hs] at h
    cases h with
    | writeOnly hw => exact hw
  · intro hw
    rw [status, if_pos hw]

/-- A property that is not write-only has changed if its values are not equal. -/
theorem isChange_iff {p : Property} (hw : p.writeOnly = false) (before after : Entries Value) :
    (p.change before after).isChange = true ↔
      (Value.field before p.stateName).equals (Value.field after p.stateName) = false := by
  have h := p.hasStatus (Value.field before p.stateName) (Value.field after p.stateName)
  have hdiffer {v w : Value} (hv : v.isNull ≠ w.isNull) : v.equals w = false :=
    eq_false_of_ne_true fun heq => hv (Value.isNull_of_equals heq)
  rw [PropertyChange.isChange]
  change (p.status _ _ != .unchanged && p.status _ _ != .writeOnly) = true ↔ _
  cases hs : p.status _ _ <;> rw [hs] at h <;> cases h
  case unchanged _ heq => simp [heq]
  case added _ hb ha => exact iff_of_true rfl (hdiffer (by simp [hb, ha]))
  case updated _ _ _ heq => exact iff_of_true rfl heq
  case removed _ hb ha => exact iff_of_true rfl (hdiffer (by simp [hb, ha]))
  case writeOnly h => simp [hw] at h

end Property

namespace Schema

variable {s : Schema}

end Schema

end Reconciliation
