import Reconciliation.Proofs.Merge.Distinct
import Reconciliation.Proofs.Merge.Scan

/-! # The order of the elements of a set

Which hashes a merged set holds does not depend on the order in which its elements are received, and
what they are merged with does not depend on the order in which elements are stored, if no two of
those have one hash.
-/
namespace Reconciliation

namespace Merge

/-! ## Hashes of the elements kept -/

theorem mem_hashes_firsts {ms : List Value} {k : UInt32} :
    k ∈ (firsts [] ms).map Value.hash ↔ k ∈ ms.map Value.hash := by
  constructor
  · exact fun h => ((sublist_firsts [] ms).map Value.hash).mem h
  · intro h
    obtain ⟨m, hm, rfl⟩ := List.mem_map.mp h
    obtain ⟨o, ho, heq⟩ := exists_first hm List.not_mem_nil
    exact List.mem_map.mpr ⟨o, ho, heq⟩

/-- Other elements may come first in another order, but their hashes are the same. -/
theorem hashes_firsts_perm {ms ms' : List Value} (h : ms.Perm ms') :
    ((firsts [] ms).map Value.hash).Perm ((firsts [] ms').map Value.hash) := by
  rw [List.perm_ext_iff_of_nodup (nodup_firsts [] ms).1 (nodup_firsts [] ms').1]
  intro k
  rw [mem_hashes_firsts, mem_hashes_firsts, (h.map Value.hash).mem_iff]

/-! ## Elements met -/

theorem counterpart_perm {h : Hashes} {stored stored' : List Value}
    (hn : (stored.map h.stored).Nodup) (hperm : stored.Perm stored') :
    counterpart h stored = counterpart h stored' := by
  funext r
  have hone : (stored.countP fun s => h.stored s == h.remote r) ≤ 1 := by
    have hcount := List.nodup_iff_count_le_one.mp hn (h.remote r)
    rwa [List.count, List.countP_map] at hcount
  rw [counterpart, counterpart, Lists.find?_perm hone hperm]

theorem scan_duplicate {name : String} {h : Hashes} {merge : Value → Value → Merged Value}
    {stored output : List Value} {r m : Value}
    (hm : (merge r (counterpart h stored r)).result = .ok m)
    (ho : m.hash ∈ output.map Value.hash) :
    (scan name h merge stored output [r]).result = .ok output := by
  obtain ⟨o, ho, heq⟩ := List.mem_map.mp ho
  have hany : (output.any fun o => o.hash == m.hash) = true :=
    List.any_eq_true.mpr ⟨o, ho, beq_iff_eq.mpr heq⟩
  rw [scan, Traced.ok_bind]
  refine ⟨m, hm, ?_⟩
  rw [if_pos hany]
  rfl

end Merge

namespace Property

open Merge

variable {p : Property} {stored : Value} {rs : List Value}

theorem ok_mergeSet_array {v : Value} : (p.mergeSet (.array rs) stored).result = .ok v ↔
    ∃ ms, p.MergesElements (.array rs) stored ms ∧ v = .array (firsts [] ms) := by
  rw [ok_mergeSet]
  constructor
  · rintro ⟨_, vs, hrs, hvs, rfl⟩
    obtain rfl := Except.ok.inj hrs
    obtain ⟨ms, hms, rfl⟩ := ok_distinct.mp hvs
    exact ⟨ms, hms, rfl⟩
  · rintro ⟨ms, hms, rfl⟩
    exact ⟨rs, _, rfl, ok_distinct.mpr ⟨ms, hms, rfl⟩, rfl⟩

theorem mergeSet_array : p.mergeSet (.array rs) stored =
    scan p.name p.setHashes p.mergeObject stored.items [] rs >>= fun vs => pure (.array vs) := by
  rw [← set_eq_scan]
  rfl

/-- In another order the remote elements can be merged, too, to the same hashes. -/
theorem mergeSet_perm {rs' : List Value} (hperm : rs'.Perm rs) {v : Value}
    (h : (p.mergeSet (.array rs) stored).result = .ok v) :
    ∃ vs vs', v = .array vs ∧ (p.mergeSet (.array rs') stored).result = .ok (.array vs') ∧
      (vs.map Value.hash).Perm (vs'.map Value.hash) := by
  obtain ⟨ms, hms, rfl⟩ := ok_mergeSet_array.mp h
  obtain ⟨ms', hms', hperm'⟩ := List.perm_comp_forall₂ hperm hms
  exact ⟨_, _, rfl, ok_mergeSet_array.mpr ⟨ms', hms', rfl⟩, hashes_firsts_perm hperm'.symm⟩

theorem mergeSet_repeated {r : Value} (hr : r ∈ rs) :
    (p.mergeSet (.array (rs ++ [r])) stored).result = (p.mergeSet (.array rs) stored).result := by
  rw [mergeSet_array, mergeSet_array, scan_append, bind_assoc, Traced.result_bind,
    Traced.result_bind]
  cases hvs : (scan p.name p.setHashes p.mergeObject stored.items [] rs).result with
  | error e => rfl
  | ok vs =>
    rw [← set_eq_scan, set_eq] at hvs
    obtain ⟨ms, hms, rfl⟩ := ok_distinct.mp hvs
    obtain ⟨m, hmem, hm⟩ := Lists.exists_right hms hr
    have hseen := mem_hashes_firsts.mpr (List.mem_map_of_mem (f := Value.hash) hmem)
    exact Traced.ok_bind.mpr ⟨_, scan_duplicate hm hseen, rfl⟩

theorem mergeSet_perm_stored {remote : Value} {ss ss' : List Value}
    (hn : (ss.map p.setHashes.stored).Nodup) (hperm : ss.Perm ss') :
    p.mergeSet remote (.array ss) = p.mergeSet remote (.array ss') := by
  rw [mergeSet, mergeSet]
  apply bind_congr
  intro rs
  rw [set_eq, set_eq]
  exact congrArg (fun met => distinct p.name p.mergeObject met [] rs >>= _)
    (counterpart_perm hn hperm)

/-- The order of elements does not matter to a set. Received in another order, they are merged to as
many elements of the same hashes, or cannot be merged either. An element that is received again at the
end changes nothing, and neither does the order of what is stored, if its hashes are different. -/
theorem mergeSet_unordered (p : Property) :
    (∀ rs rs' stored, rs.Perm rs' →
      (∃ e e', (p.mergeSet (.array rs) stored).result = .error e ∧
        (p.mergeSet (.array rs') stored).result = .error e') ∨
      ∃ vs vs', (p.mergeSet (.array rs) stored).result = .ok (.array vs) ∧
        (p.mergeSet (.array rs') stored).result = .ok (.array vs') ∧ vs.length = vs'.length ∧
        ∀ k, k ∈ vs.map Value.hash ↔ k ∈ vs'.map Value.hash) ∧
    (∀ rs r stored, r ∈ rs → (p.mergeSet (.array (rs ++ [r])) stored).result =
      (p.mergeSet (.array rs) stored).result) ∧
    ∀ remote ss ss', (ss.map p.setHashes.stored).Nodup → ss.Perm ss' →
      p.mergeSet remote (.array ss) = p.mergeSet remote (.array ss') := by
  refine ⟨fun rs rs' stored hperm => ?_, fun rs r stored => mergeSet_repeated,
    fun remote ss ss' => mergeSet_perm_stored⟩
  cases h : (p.mergeSet (.array rs) stored).result with
  | ok v =>
    obtain ⟨vs, vs', rfl, h', hhashes⟩ := mergeSet_perm hperm.symm h
    refine Or.inr ⟨vs, vs', rfl, h', ?_, fun k => hhashes.mem_iff⟩
    simpa using hhashes.length_eq
  | error e =>
    cases h' : (p.mergeSet (.array rs') stored).result with
    | error e' => exact Or.inl ⟨e, e', rfl, rfl⟩
    | ok v =>
      obtain ⟨_, _, -, hok, -⟩ := mergeSet_perm hperm h'
      rw [h] at hok
      cases hok

/-- Logins of one checksum: the one that is received first is kept, and has the hash of the other.
Stored accounts change places, and an account is received twice. -/
theorem logins_unordered :
    ((sampleAccounts.mergeSet (.array [login (.string "plumless"), login (.string "buckeroo")])
        .null).result = .ok (.array [account (.string "plumless") .null]) ∧
      (sampleAccounts.mergeSet (.array [login (.string "buckeroo"), login (.string "plumless")])
        .null).result = .ok (.array [account (.string "buckeroo") .null]) ∧
      (account (.string "buckeroo") .null).hash = (account (.string "plumless") .null).hash) ∧
    ([account (.string "a") (.string "A"), account (.string "b") (.string "B")].map
      sampleAccounts.setHashes.stored).Nodup ∧
    (sampleAccounts.mergeSet (.array [login (.string "a"), login (.string "b"), login (.string "a")])
      (.array [account (.string "b") (.string "B"), account (.string "a") (.string "A")])).result =
        .ok (.array [account (.string "a") (.string "A"), account (.string "b") (.string "B")]) := by
  obtain ⟨hremote, hrepeated, hstored⟩ := mergeSet_unordered sampleAccounts
  have hfirst : (sampleAccounts.mergeSet
      (.array [login (.string "plumless"), login (.string "buckeroo")]) .null).result =
      .ok (.array [account (.string "plumless") .null]) := by decide +kernel
  have hsecond : (sampleAccounts.mergeSet
      (.array [login (.string "buckeroo"), login (.string "plumless")]) .null).result =
      .ok (.array [account (.string "buckeroo") .null]) := by decide +kernel
  have hhashes : ([account (.string "a") (.string "A"), account (.string "b") (.string "B")].map
      sampleAccounts.setHashes.stored).Nodup := by decide +kernel
  refine ⟨⟨hfirst, hsecond, ?_⟩, hhashes, ?_⟩
  · rcases hremote _ _ .null (.swap (login (.string "buckeroo")) (login (.string "plumless")) [])
      with ⟨_, _, herror, -⟩ | ⟨vs, vs', hvs, hvs', -, hsame⟩
    · rw [hfirst] at herror
      cases herror
    · obtain rfl := Value.array.inj (Except.ok.inj (hfirst.symm.trans hvs))
      obtain rfl := Value.array.inj (Except.ok.inj (hsecond.symm.trans hvs'))
      exact List.mem_singleton.mp ((hsame _).mpr (List.mem_singleton_self _))
  · have hagain := hrepeated [login (.string "a"), login (.string "b")] (login (.string "a"))
      (.array [account (.string "b") (.string "B"), account (.string "a") (.string "A")])
      List.mem_cons_self
    refine hagain.trans ?_
    rw [← hstored _ _ _ hhashes (.swap _ _ _)]
    decide +kernel

end Property

end Reconciliation
