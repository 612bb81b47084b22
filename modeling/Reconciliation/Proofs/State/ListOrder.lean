import Mathlib.Data.List.Perm.Basic
import Reconciliation.Proofs.Merge.Arrangement
import Reconciliation.Proofs.State.Reconcile
import Reconciliation.Proofs.Value.Decision

/-! # Reads that follow the stored order, and reads that do not

The two kinds of read differ in the lists whose order carries no meaning, and nowhere else. Of an
item that such a list of scalars holds already, the first kind stores as many copies as there were
before, so the two reads store the same items if and only if these numbers agree.
-/
namespace Reconciliation

open Merge

/-! ## How often an item is stored -/

namespace Merge

def copies (r : Value) (xs : List Value) : Nat := xs.countP fun x => x.equals r

theorem copies_append (r : Value) (xs ys : List Value) :
    copies r (xs ++ ys) = copies r xs + copies r ys := List.countP_append

theorem copies_eq_zero {r : Value} {xs : List Value} :
    copies r xs = 0 ↔ ∀ x ∈ xs, x.equals r = false := by
  rw [copies, List.countP_eq_zero]
  simp only [Bool.not_eq_true]

/-- Among items that are equal to `r` only if they are `r`, its copies are its occurrences. -/
theorem copies_eq_count {r : Value} {xs : List Value} (hr : r.equals r = true)
    (h : ∀ x ∈ xs, x.equals r = true → x = r) : copies r xs = xs.count r := by
  rw [copies, List.count_eq_countP]
  apply List.countP_congr
  intro x hx
  rw [beq_iff_eq]
  constructor
  · exact h x hx
  · rintro rfl
    exact hr

variable {stored remote : List Value}

section Copies

variable (hk : ∀ r ∈ remote, r.keysDistinct = true)
include hk

theorem equals_between {s r r' : Value} (hr : r ∈ remote) (h : s.equals r = true)
    (h' : r'.equals r = true) : s.equals r' = true :=
  Value.equals_trans h (Value.equals_symm (hk r hr) h')

/-- The received items that are found for the stored copies of an item are its copies, too. -/
theorem copies_found {r : Value} (hr : r ∈ remote) :
    copies r (stored.filterMap fun s => remote.find? s.equals) = copies r stored := by
  rw [copies, copies, List.countP_filterMap]
  apply List.countP_congr
  intro s _
  cases hfind : remote.find? s.equals with
  | none =>
    have hsr := List.find?_eq_none.mp hfind r hr
    simp [hsr]
  | some x =>
    have hsx := List.find?_some hfind
    have hx := List.mem_of_find?_eq_some hfind
    rw [Option.map_some, Option.getD_some]
    constructor
    · exact Value.equals_trans hsx
    · intro hsr
      exact Value.equals_trans (Value.equals_symm (hk x hx) hsx) hsr

theorem copies_fresh {r : Value} (hr : r ∈ remote) :
    copies r (remote.filter fun x => !stored.any fun s => s.equals x) =
      if copies r stored = 0 then copies r remote else 0 := by
  by_cases hzero : copies r stored = 0
  · rw [if_pos hzero, copies, copies, List.countP_filter]
    apply List.countP_congr
    intro x _
    rw [Bool.and_eq_true, and_iff_left_iff_imp]
    intro hxr
    rw [Bool.not_eq_true', List.any_eq_false]
    intro s hs hsx
    have hsr := copies_eq_zero.mp hzero s hs
    rw [Value.equals_trans hsx hxr] at hsr
    cases hsr
  · rw [if_neg hzero, copies_eq_zero]
    intro x hx
    by_contra hxr
    have hxr := eq_true_of_ne_false hxr
    apply hzero
    rw [copies_eq_zero]
    intro s hs
    by_contra hsr
    have hsx := equals_between hk hr (eq_true_of_ne_false hsr) hxr
    have hnot := (List.mem_filter.mp hx).2
    rw [Bool.not_eq_true', List.any_eq_false] at hnot
    exact hnot s hs hsx

/-- An item that is stored already is stored as often as before, any other one as often as it is
received. -/
theorem copies_arranged {r : Value} (hr : r ∈ remote) :
    copies r (arranged Value.equals stored remote) =
      if copies r stored = 0 then copies r remote else copies r stored := by
  rw [arranged, copies_append, copies_found hk hr, copies_fresh hk hr]
  split
  · omega
  · omega

/-- Equal items that are both found for stored ones are the same item. -/
theorem eq_of_mem_arranged {r x : Value} (hr : r ∈ arranged Value.equals stored remote)
    (hx : x ∈ arranged Value.equals stored remote) (hknown : copies r stored ≠ 0)
    (hxr : x.equals r = true) : x = r := by
  have hmem := mem_of_mem_arranged hr
  have hmem' := mem_of_mem_arranged hx
  have hcopy : ∃ s ∈ stored, s.equals r = true := by
    by_contra hnone
    apply hknown
    rw [copies_eq_zero]
    intro s hs
    by_contra hsr
    exact hnone ⟨s, hs, eq_true_of_ne_false hsr⟩
  obtain ⟨s, hs, hsr⟩ := hcopy
  have hsx := equals_between hk hmem hsr hxr
  rcases mem_arranged hr with ⟨t, -, ht⟩ | ⟨-, hfresh⟩
  · rcases mem_arranged hx with ⟨u, -, hu⟩ | ⟨-, hfresh⟩
    · -- Both are the first received item that `s` is equal to.
      have hlink : ∀ r ∈ remote, ∀ s s' r' : Value, s.equals r = true → s'.equals r = true →
          s'.equals r' = true → s.equals r' = true := fun r hr _ _ _ => Value.equals_link (hk r hr)
      have hfirst := find?_link hlink hmem (List.find?_some ht) hsr
      have hfirst' := find?_link hlink hmem' (List.find?_some hu) hsx
      rw [ht] at hfirst
      rw [hu] at hfirst'
      exact Option.some.inj (hfirst'.trans hfirst.symm)
    · rw [hfresh s hs] at hsx
      cases hsx
  · rw [hfresh s hs] at hsr
    cases hsr

omit hk in
theorem count_arranged_new {r : Value} (hnew : copies r stored = 0) :
    (arranged Value.equals stored remote).count r = remote.count r := by
  rw [copies_eq_zero] at hnew
  have hfound : r ∉ stored.filterMap fun s => remote.find? s.equals := by
    intro hmem
    obtain ⟨s, hs, hfind⟩ := List.mem_filterMap.mp hmem
    have hsr := List.find?_some hfind
    rw [hnew s hs] at hsr
    cases hsr
  rw [arranged, List.count_append, List.count_eq_zero_of_not_mem hfound, Nat.zero_add]
  apply List.count_filter
  rw [Bool.not_eq_true', List.any_eq_false]
  intro s hs
  rw [hnew s hs]
  exact Bool.false_ne_true

/-- Arranging a list keeps its items if and only if every item that was stored before was stored as
often as it is received, and is received in one form only. -/
theorem arranged_perm_iff (hf : ∀ r ∈ remote, r.nanFree = true) :
    (arranged Value.equals stored remote).Perm remote ↔ ∀ r ∈ remote, copies r stored ≠ 0 →
      copies r stored = copies r remote ∧ ∀ x ∈ remote, x.equals r = true → x = r := by
  constructor
  · intro hperm r hr hknown
    have hcount : copies r (arranged Value.equals stored remote) = copies r remote :=
      hperm.countP_eq _
    rw [copies_arranged hk hr, if_neg hknown] at hcount
    refine ⟨hcount, fun x hx => ?_⟩
    exact eq_of_mem_arranged hk (hperm.mem_iff.mpr hr) (hperm.mem_iff.mpr hx) hknown
  · intro h
    rw [List.perm_iff_count]
    intro r
    by_cases hr : r ∈ remote
    · have hself : r.equals r = true := Value.equals_refl (hk r hr) (hf r hr)
      by_cases hknown : copies r stored = 0
      · exact count_arranged_new hknown
      · obtain ⟨hcopies, hform⟩ := h r hr hknown
        have hform' : ∀ x ∈ arranged Value.equals stored remote, x.equals r = true → x = r :=
          fun x hx => hform x (mem_of_mem_arranged hx)
        rw [← copies_eq_count hself hform', ← copies_eq_count hself hform, copies_arranged hk hr,
          if_neg hknown, hcopies]
    · rw [List.count_eq_zero_of_not_mem hr, List.count_eq_zero_of_not_mem]
      exact fun hmem => hr (mem_of_mem_arranged hmem)

end Copies

end Merge

/-! ## One property under both kinds of read -/

namespace Property

/-- A list that one kind of read rearranges and the other does not. -/
def Rearranged (p : Property) : Prop := p.shouldIgnoreOrder = true ∧ p.writeOnly = false

instance : DecidablePred Rearranged := fun p =>
  inferInstanceAs (Decidable (p.shouldIgnoreOrder = true ∧ p.writeOnly = false))

variable {p : Property}

theorem update_orders (hp : p.shouldIgnoreOrder = false) (remote stored : Value) :
    p.update .stored remote stored = p.update .received remote stored := by
  rw [update_plain (Or.inr hp), update_plain (Or.inr hp)]

theorem or_update_writeOnly (hw : p.writeOnly = true) {order : ListOrder} {remote : Value}
    {values : Entries Value} {u : Option Value}
    (h : (p.update order remote (Value.field values p.stateName)).result = .ok u) :
    u.or (values.get? p.stateName) = values.get? p.stateName := by
  rcases update_writeOnly hw h with rfl | ⟨rfl, hnull⟩
  · rfl
  · rw [Value.field] at hnull ⊢
    cases hget : values.get? p.stateName with
    | none =>
      rw [hget] at hnull
      cases hnull
    | some v => rfl

/-- A list is arranged only if what is stored is an array, or nothing. -/
theorem stored_of_update (hp : p.shouldIgnoreOrder = true) {remote : List Value} {stored : Value}
    {u : Option Value} (h : (p.update .stored (.array remote) stored).result = .ok u) :
    stored = .null ∨ ∃ xs, stored = .array xs := by
  obtain ⟨a, ha, -⟩ := Traced.ok_bind.mp h
  change Schema.arrangedRemote .stored p (.array remote) stored = .ok a at ha
  rw [Schema.arrangedRemote, hp, if_pos (by simp), if_neg (by simp [Value.isNull])] at ha
  cases stored with
  | null => exact Or.inl rfl
  | array xs => exact Or.inr ⟨xs, rfl⟩
  | _ =>
    rw [reorder, hp] at ha
    cases ha

section Primitives

variable (hp : p.Rearranged) (hc : p.isPrimitiveCollection = true)
include hp hc

theorem coerce_primitiveList (remote : List Value) (stored : Value) :
    coerce p (.array remote) stored = pure (.array remote) := by
  obtain ⟨-, he, hitems⟩ := isPrimitiveCollection_iff.mp hc
  rw [coerce_list (kind_of_shouldIgnoreOrder hp.1) hp.2, he, if_neg Bool.false_ne_true,
    if_pos hitems]
  rfl

theorem update_primitives_received (remote : List Value) (stored : Value) :
    p.update .received (.array remote) stored = pure (some (.array remote)) := by
  rw [update_plain (Or.inl rfl), coerce_primitiveList hp hc]
  rfl

theorem update_primitives_stored {remote : List Value} {stored : Value} {u : Option Value}
    (h : (p.update .stored (.array remote) stored).result = .ok u) :
    u = some (.array (arranged Value.equals stored.items remote)) := by
  have he := Option.isSome_eq_false_iff.mp (isPrimitiveCollection_iff.mp hc).2.1
  have hsame : p.sameItem = Value.equals := by
    funext x y
    exact sameItem_none (Option.isNone_iff_eq_none.mp he) x y
  rw [update_array hp.1 (stored_of_update hp.1 h), coerce_primitiveList hp hc, hsame] at h
  exact (Except.ok.inj h).symm

end Primitives

end Property

/-! ## Both kinds of read -/

namespace Schema

variable {s : Schema} (hn : (s.properties.map Property.stateName).Nodup) {es : Entries Value}
  (hk : Value.keysDistinct (.object es) = true) {values stored received : Entries Value}
  (hs : (s.reconcile .stored (.object es) values).result = .ok stored)
  (hr : (s.reconcile .received (.object es) values).result = .ok received)
include hn hk hs hr

/-- A state name that belongs to no rearranged list holds the same value after both. -/
theorem get?_orders {k : String} (hplain : ∀ p ∈ s.properties, p.stateName = k → p.Rearranged →
    k ∈ reservedNames) : stored.get? k = received.get? k := by
  have hkeys := (Value.keysDistinct_object.mp hk).1
  by_cases hwritten : ∃ e ∈ es, ∃ p, s.find? e.1 = some p ∧ p.stateName ∉ reservedNames ∧
      p.stateName = k
  · obtain ⟨⟨name, remote⟩, he, p, hp, hres, rfl⟩ := hwritten
    obtain ⟨u, hu, hget⟩ := mergeEntries_get? hn hkeys hs he hp hres
    obtain ⟨u', hu', hget'⟩ := mergeEntries_get? hn hkeys hr he hp hres
    rw [hget, hget']
    by_cases hw : p.writeOnly = true
    · rw [Property.or_update_writeOnly hw hu, Property.or_update_writeOnly hw hu']
    · have hignore : p.shouldIgnoreOrder = false := by
        by_contra hignore
        exact hres (hplain p (find?_spec hp).1 rfl
          ⟨eq_true_of_ne_false hignore, eq_false_of_ne_true hw⟩)
      rw [Property.update_orders hignore, hu'] at hu
      rw [Except.ok.inj hu]
  · have hother : ∀ e ∈ es, ∀ p, s.find? e.1 = some p → p.stateName ∉ reservedNames →
        p.stateName ≠ k := by
      intro e he p hp hres heq
      exact hwritten ⟨e, he, p, hp, hres, heq⟩
    rw [mergeEntries_frame hs hother, mergeEntries_frame hr hother]

theorem field_orders {name : String} {p : Property} (hp : s.find? name = some p)
    (hres : p.stateName ∉ reservedNames) (hre : p.Rearranged)
    (hc : p.isPrimitiveCollection = true) {remote : List Value}
    (he : (name, .array remote) ∈ es) :
    Value.field received p.stateName = .array remote ∧
      Value.field stored p.stateName =
        .array (arranged Value.equals (Value.field values p.stateName).items remote) := by
  have hkeys := (Value.keysDistinct_object.mp hk).1
  obtain ⟨u, hu, hget⟩ := mergeEntries_get? hn hkeys hs he hp hres
  obtain ⟨u', hu', hget'⟩ := mergeEntries_get? hn hkeys hr he hp hres
  obtain rfl := Property.update_primitives_stored hre hc hu
  rw [Property.update_primitives_received hre hc] at hu'
  obtain rfl := Except.ok.inj hu'
  constructor
  · rw [Value.field, hget']
    rfl
  · rw [Value.field, hget]
    rfl

/-- The two kinds of read store the same under every name that belongs to no rearranged list. In a
rearranged list of scalars, both store received items only. The one that keeps the received order
stores all of them; the other one stores an item it knows as often as it was stored before, and any
other item as often as it is received. So it stores a permutation of the received items if and only
if the known ones are received as often as they were stored, each in one form. -/
theorem reconcile_orders (hf : Value.nanFree (.object es) = true) :
    (∀ k, (∀ p ∈ s.properties, p.stateName = k → p.Rearranged → k ∈ reservedNames) →
      stored.get? k = received.get? k) ∧
    ∀ name p remote, s.find? name = some p → p.stateName ∉ reservedNames → p.Rearranged →
      p.isPrimitiveCollection = true → (name, .array remote) ∈ es →
        ∃ prior items, (Value.field values p.stateName).items = prior ∧
          Value.field received p.stateName = .array remote ∧
          Value.field stored p.stateName = .array items ∧ (∀ x ∈ items, x ∈ remote) ∧
          (∀ r ∈ remote, copies r items =
            if copies r prior = 0 then copies r remote else copies r prior) ∧
          (items.Perm remote ↔ ∀ r ∈ remote, copies r prior ≠ 0 →
            copies r prior = copies r remote ∧ ∀ x ∈ remote, x.equals r = true → x = r) := by
  constructor
  · intro k hplain
    exact get?_orders hn hk hs hr hplain
  · intro name p remote hp hres hre hc he
    obtain ⟨hreceived, hstored⟩ := field_orders hn hk hs hr hp hres hre hc he
    have hdistinct := Value.keysDistinct_array.mp ((Value.keysDistinct_object.mp hk).2 _ he)
    have hnumbers := Value.nanFree_array.mp (Value.nanFree_object.mp hf _ he)
    refine ⟨_, _, rfl, hreceived, hstored, fun x => mem_of_mem_arranged, ?_, ?_⟩
    · intro r hmem
      exact copies_arranged hdistinct hmem
    · exact arranged_perm_iff hdistinct hnumbers

end Schema

/-! ## Zones in any order -/

/-- A cluster with zones in any order, a size, and a token that is kept. -/
def sampleCluster : Schema :=
  ⟨[{ name := "zones", kind := .list, ignoreOrder := true, itemKind := some .string },
    { name := "size", kind := .integer },
    { name := "token", kind := .string, writeOnly := true }], false⟩

def zoneNames (zones : List String) : Value := .array (zones.map .string)

def clusterRead (order : ListOrder) (stored remote : List String) : Merged (Entries Value) :=
  sampleCluster.reconcile order (.object [("zones", zoneNames remote), ("size", .int 3)])
    [("zones", zoneNames stored), ("token", .string "A")]

def StoresZones (read : Merged (Entries Value)) (zones : List String) : Prop :=
  Traced.passes (fun values => decide (Value.field values "zones" = zoneNames zones))
    read.result = true

instance (read : Merged (Entries Value)) (zones : List String) :
    Decidable (StoresZones read zones) :=
  inferInstanceAs (Decidable (_ = true))

theorem StoresZones.ok {read : Merged (Entries Value)} {zones : List String}
    (h : StoresZones read zones) :
    ∃ values, read.result = .ok values ∧ Value.field values "zones" = zoneNames zones := by
  obtain ⟨values, hread, hzones⟩ := Traced.ok_of_passes h
  exact ⟨values, hread, of_decide_eq_true hzones⟩

/-- A new zone and two known ones: both reads store all three, and the same size and token. -/
theorem zones_reordered : ∃ stored received items,
    (clusterRead .stored ["a", "b"] ["c", "b", "a"]).result = .ok stored ∧
    (clusterRead .received ["a", "b"] ["c", "b", "a"]).result = .ok received ∧
    stored.get? "size" = received.get? "size" ∧ stored.get? "token" = received.get? "token" ∧
    Value.field received "zones" = zoneNames ["c", "b", "a"] ∧
    Value.field stored "zones" = .array items ∧
    items.Perm [.string "c", .string "b", .string "a"] := by
  obtain ⟨stored, hs, -⟩ := StoresZones.ok
    (show StoresZones (clusterRead .stored ["a", "b"] ["c", "b", "a"]) ["a", "b", "c"] by
      decide +kernel)
  obtain ⟨received, hr, -⟩ := StoresZones.ok
    (show StoresZones (clusterRead .received ["a", "b"] ["c", "b", "a"]) ["c", "b", "a"] by
      decide +kernel)
  obtain ⟨hplain, hzones⟩ := Schema.reconcile_orders (s := sampleCluster) (by decide +kernel)
    (by decide +kernel) hs hr (by decide +kernel)
  obtain ⟨prior, items, rfl, hreceived, hstored, -, -, hperm⟩ :=
    hzones "zones" _ _ rfl (by decide +kernel) (by decide) rfl (List.mem_cons_self)
  refine ⟨stored, received, items, hs, hr, ?_, ?_, hreceived, hstored, ?_⟩
  · exact hplain "size" (by decide +kernel)
  · exact hplain "token" (by decide +kernel)
  · exact hperm.mpr (by decide +kernel)

/-- A zone that is received twice and was stored once is stored once. -/
theorem zones_lose_copies : ¬ ∀ (s : Schema) (es values stored received : Entries Value)
    (name : String) (p : Property) (remote items : List Value),
    (s.properties.map Property.stateName).Nodup → Value.keysDistinct (.object es) = true →
    Value.nanFree (.object es) = true →
    (s.reconcile .stored (.object es) values).result = .ok stored →
    (s.reconcile .received (.object es) values).result = .ok received →
    s.find? name = some p → p.stateName ∉ Schema.reservedNames → p.Rearranged →
    p.isPrimitiveCollection = true → (name, .array remote) ∈ es →
    Value.field received p.stateName = .array remote →
    Value.field stored p.stateName = .array items → items.Perm remote := by
  intro hall
  obtain ⟨stored, hs, hstored⟩ := StoresZones.ok
    (show StoresZones (clusterRead .stored ["a"] ["a", "a"]) ["a"] by decide +kernel)
  obtain ⟨received, hr, hreceived⟩ := StoresZones.ok
    (show StoresZones (clusterRead .received ["a"] ["a", "a"]) ["a", "a"] by decide +kernel)
  have hname : Property.stateName
      { name := "zones", kind := .list, ignoreOrder := true, itemKind := some .string } =
        "zones" := by
    decide +kernel
  have hperm := hall sampleCluster _ _ stored received "zones" _ _ [.string "a"]
    (by decide +kernel) (by decide +kernel) (by decide +kernel) hs hr rfl (by decide +kernel)
    (by decide) rfl List.mem_cons_self (hname ▸ hreceived) (hname ▸ hstored)
  exact absurd hperm.length_eq (by decide)

end Reconciliation
