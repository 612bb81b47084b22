import Reconciliation.Proofs.Lists
import Reconciliation.Proofs.Merge.Coercion
import Reconciliation.Proofs.Number.Magnitude
import Reconciliation.Proofs.Value.Order

/-! # What merged values inherit

A merged value is made of remote and stored nodes, cut or rounded numbers, and new arrays and
objects. A test that passes at all of those passes throughout the merged value.
-/
namespace Reconciliation

namespace Value

variable {test : Value → Bool}

structure Inherited (test : Value → Bool) : Prop extends Lifts test where
  null : test .null = true
  cut : ∀ x n, Binary64.truncated? x = some n → test (.int n) = true
  rounded : ∀ n x, Binary64.ofInt? n = some x → test (.float x) = true

theorem everywhere_items {v : Value} (h : everywhere test v = true) :
    ∀ x ∈ v.items, everywhere test x = true := by
  cases v with
  | array xs => exact (everywhere_array.mp h).2
  | _ => simp [items]

theorem everywhere_unwrapped {v : Value} (h : everywhere test v = true) :
    everywhere test v.unwrapped = true := by
  unfold unwrapped
  split
  · exact (everywhere_array.mp h).2 _ (by simp)
  · exact h

theorem everywhere_entries {v : Value} (h : everywhere test v = true) :
    ∀ e ∈ v.entries, everywhere test e.2 = true := by
  have hu := everywhere_unwrapped h
  unfold entries
  split
  · rename_i es heq
    rw [heq] at hu
    exact (everywhere_object.mp hu).2
  · simp

theorem inherited_ownKeysDistinct : Inherited ownKeysDistinct where
  toLifts := lifts_ownKeysDistinct
  null := rfl
  cut _ _ _ := rfl
  rounded _ _ _ := rfl

theorem nearest_ne_nan (x : Rat) : Binary64.nearest x ≠ .nan := by
  simp only [Binary64.nearest]
  split
  · split <;> simp [Binary64.zero]
  · split <;> simp

theorem inherited_isNotNaN : Inherited isNotNaN where
  toLifts := lifts_isNotNaN
  null := rfl
  cut _ _ _ := rfl
  rounded n x h := by
    unfold Binary64.ofInt? at h
    have hx : x ≠ .nan := by
      split at h
      · cases h
      · obtain rfl := Option.some.inj h
        exact nearest_ne_nan n
    cases x with
    | nan => exact absurd rfl hx
    | _ => rfl

/-- A number cut to an integer has few digits. -/
theorem inherited_ownDigitsWithin : Inherited (ownDigitsWithin Numeral.digitLimit) where
  toLifts := lifts_ownDigitsWithin _
  null := rfl
  cut x n h := by
    have hlength : (Nat.toDigits 10 n.natAbs).length ≤ 4300 := by
      rw [Nat.length_toDigits_le_iff (by decide) (by decide)]
      calc n.natAbs < 2 ^ 1024 := Binary64.natAbs_truncated_lt h
        _ ≤ 10 ^ 1024 := Nat.pow_le_pow_left (by decide) _
        _ ≤ 10 ^ 4300 := Nat.pow_le_pow_right (by decide) (by decide)
    rw [ownDigitsWithin, Numeral.ofInt, Numeral.excess?, Numeral.digitLimit, Option.bind_some,
      if_neg (Nat.not_lt.mpr hlength)]
    rfl
  rounded _ _ _ := rfl

end Value

open Value (everywhere Inherited)

namespace Merge

variable {test : Value → Bool}

theorem scalar_everywhere (ht : Inherited test) {name : String} {kind : Kind} {remote v : Value}
    (hr : everywhere test remote = true) (h : scalar name kind remote = .ok v) :
    everywhere test v = true := by
  unfold scalar at h
  split at h
  case h_1 => cases h
  case h_2 => exact Except.ok.inj h ▸ ht.null
  case h_3 => exact Except.ok.inj h ▸ hr
  case h_4 => exact Except.ok.inj h ▸ hr
  case h_5 => exact Except.ok.inj h ▸ hr
  case h_6 =>
    split at h
    · rename_i n hn
      exact Except.ok.inj h ▸ ht.cut _ n hn
    · cases h
  case h_7 => exact Except.ok.inj h ▸ hr
  case h_8 =>
    split at h
    · rename_i x hx
      exact Except.ok.inj h ▸ ht.rounded _ x hx
    · cases h
  case h_9 => cases h

theorem primitives_everywhere {name : String} {remote v : Value}
    (hr : everywhere test remote = true) (h : primitives name remote = .ok v) :
    everywhere test v = true := by
  unfold primitives at h
  split at h
  · exact Except.ok.inj h ▸ hr
  · exact Except.ok.inj h ▸ hr
  · cases h

theorem remoteEntries_everywhere {name : String} {remote : Value} {es : Entries Value}
    (hr : everywhere test remote = true) (h : remoteEntries name remote = .ok es) :
    ∀ e ∈ es, everywhere test e.2 = true := by
  have hu := Value.everywhere_unwrapped hr
  unfold remoteEntries at h
  split at h
  · simp [← Except.ok.inj h]
  · rename_i fs heq
    rw [heq] at hu
    exact Except.ok.inj h ▸ (Value.everywhere_object.mp hu).2
  · cases h

theorem remoteItems_everywhere {name : String} {remote : Value} {xs : List Value}
    (hr : everywhere test remote = true) (h : remoteItems name remote = .ok xs) :
    ∀ x ∈ xs, everywhere test x = true := by
  unfold remoteItems at h
  split at h
  · simp [← Except.ok.inj h]
  · exact Except.ok.inj h ▸ (Value.everywhere_array.mp hr).2
  · cases h

theorem counterpart_mem (h : Hashes) (stored : List Value) (remote : Value) :
    counterpart h stored remote = .null ∨ counterpart h stored remote ∈ stored := by
  rw [counterpart]
  cases hf : stored.find? fun s => h.stored s == h.remote remote with
  | none => exact Or.inl rfl
  | some s => exact Or.inr (List.mem_of_find?_eq_some hf)

theorem mem_of_distinct {name : String} {merge : Value → Value → Merged Value}
    {stored : Value → Value} {seen : List UInt32} {remote vs : List Value}
    (h : (distinct name merge stored seen remote).result = .ok vs) {v : Value} (hv : v ∈ vs) :
    ∃ r ∈ remote, (merge r (stored r)).result = .ok v := by
  obtain ⟨ms, hms, rfl⟩ := ok_distinct.mp h
  exact Lists.exists_left hms ((sublist_firsts seen ms).mem hv)

theorem wrapped_everywhere (ht : Inherited test) {es : Entries Value} (hn : es.keys.Nodup)
    (h : ∀ e ∈ es, everywhere test e.2 = true) (wraps : Bool) :
    everywhere test (wrapped wraps es) = true := by
  have hobject : everywhere test (.object es) = true :=
    Value.everywhere_object.mpr ⟨ht.object es hn, h⟩
  cases wraps with
  | false => exact hobject
  | true => exact Value.everywhere_array.mpr ⟨ht.array _, by simpa using hobject⟩

end Merge

namespace Property

open Merge

variable {test : Value → Bool}

def Inherits (test : Value → Bool) (merge : Value → Value → Merged Value) : Prop :=
  ∀ remote stored v, everywhere test remote = true → everywhere test stored = true →
    (merge remote stored).result = .ok v → everywhere test v = true

theorem mergeObject_inherits (ht : Inherited test) {p : Property}
    (ih : ∀ c ∈ p.children, Inherits test (coerce c)) : Inherits test p.mergeObject := by
  intro remote stored v hr hs h
  obtain ⟨-, r, es, hre, ha, rfl⟩ := ok_mergeObject.mp h
  have hre := remoteEntries_everywhere hr hre
  have hse := Value.everywhere_entries hs
  have hes : ∀ e ∈ es, everywhere test e.2 = true := by
    intro e he
    obtain ⟨c, hc, hv⟩ := Lists.exists_left ha.values he
    exact ih c hc _ _ _ (Value.everywhere_field ht.null hre _) (Value.everywhere_field ht.null hse _) hv
  exact wrapped_everywhere ht (Entries.nodup_ofList es)
    (fun e he => hes e (Entries.mem_ofList he)) p.wraps

theorem mergeList_inherits (ht : Inherited test) {p : Property}
    (ih : Inherits test p.mergeObject) : Inherits test p.mergeList := by
  intro remote stored v hr hs h
  obtain ⟨rs, vs, hrs, hvs, rfl⟩ := ok_mergeList.mp h
  have hrs := remoteItems_everywhere hr hrs
  have hss := Value.everywhere_items hs
  refine Value.everywhere_array.mpr ⟨ht.array vs, fun w hw => ?_⟩
  obtain ⟨pair, hpair, hm⟩ := Lists.exists_left hvs hw
  obtain ⟨h1, h2⟩ := mem_paired hpair
  refine ih pair.1 pair.2 w ?_ ?_ hm
  · exact h1.elim (fun h => h ▸ ht.null) (hrs _)
  · exact h2.elim (fun h => h ▸ ht.null) (hss _)

theorem mergeSet_inherits (ht : Inherited test) {p : Property}
    (ih : Inherits test p.mergeObject) : Inherits test p.mergeSet := by
  intro remote stored v hr hs h
  obtain ⟨rs, vs, hrs, hvs, rfl⟩ := ok_mergeSet.mp h
  have hrs := remoteItems_everywhere hr hrs
  have hss := Value.everywhere_items hs
  refine Value.everywhere_array.mpr ⟨ht.array vs, fun w hw => ?_⟩
  obtain ⟨r, hr', hm⟩ := mem_of_distinct hvs hw
  refine ih r _ w (hrs r hr') ?_ hm
  exact (counterpart_mem _ _ r).elim (fun h => h ▸ ht.null) (hss _)

theorem coerce_inherits (ht : Inherited test) (p : Property) : Inherits test (coerce p) := by
  induction p with
  | step p ih =>
    have hobject := mergeObject_inherits ht ih
    intro remote stored v hr hs h
    cases ok_coerce.mp h with
    | writeOnly => exact hs
    | object _ _ h => exact hobject remote stored v hr hs h
    | list _ _ _ h => exact mergeList_inherits ht hobject remote stored v hr hs h
    | set _ _ _ h => exact mergeSet_inherits ht hobject remote stored v hr hs h
    | primitives _ _ _ _ h => exact primitives_everywhere hr h
    | scalar _ _ h => exact scalar_everywhere ht hr h

end Property

end Reconciliation
