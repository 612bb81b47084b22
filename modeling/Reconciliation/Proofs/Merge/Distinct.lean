import Reconciliation.Proofs.Merge.Correlation
import Reconciliation.Proofs.Merge.Preservation
import Reconciliation.Proofs.Value.Collision

/-! # Which elements a merged set holds

A set holds the first merged element of each hash. An element that it does not hold is equal to one
that it holds, or collides with it, and then it is lost.
-/
namespace Reconciliation

open Merge
open Value (Collision)

namespace Merge

section Firsts

variable {ms : List Value} (hkeys : ∀ m ∈ ms, m.keysDistinct = true)
include hkeys

theorem keysDistinct_firsts : ∀ o ∈ firsts [] ms, o.keysDistinct = true :=
  fun o ho => hkeys o ((sublist_firsts [] ms).mem ho)

/-- Every value is equal to the first one of its hash or collides with it. -/
theorem firsts_cover : ∀ m ∈ ms, ∃ o ∈ firsts [] ms, o.equals m = true ∨ Collision o m := by
  intro m hm
  have hnew : m.hash ∉ ([] : List UInt32) := List.not_mem_nil
  obtain ⟨o, ho, hhash⟩ := exists_first hm hnew
  exact ⟨o, ho, Value.equals_or_collision (keysDistinct_firsts hkeys o ho) (hkeys m hm) hhash⟩

/-- A value that collides with a first one is equal to none: that one has its hash, so no other
has. -/
theorem firsts_found_iff : ∀ m ∈ ms, (∃ o ∈ firsts [] ms, o.equals m = true) ↔
    ∀ o ∈ firsts [] ms, ¬Collision o m := by
  intro m hm
  have hkeys' := keysDistinct_firsts hkeys
  constructor
  · rintro ⟨o, ho, heq⟩ o' ho' hc
    have hhash : o'.hash = o.hash :=
      hc.hash_eq.trans (Value.hash_of_equals (hkeys' o ho) (hkeys m hm) heq).symm
    obtain rfl := List.inj_on_of_nodup_map (nodup_firsts [] ms).1 ho' ho hhash
    rw [hc.not_equals (hkeys' o' ho) (hkeys m hm)] at heq
    cases heq
  · intro hnone
    obtain ⟨o, ho, heq | hc⟩ := firsts_cover hkeys m hm
    · exact ⟨o, ho, heq⟩
    · exact absurd hc (hnone o ho)

theorem firsts_different : (firsts [] ms).Pairwise fun o o' => o.equals o' = false := by
  have hkeys' := keysDistinct_firsts hkeys
  refine (List.pairwise_map.mp (nodup_firsts [] ms).1).imp_of_mem fun ho ho' hne => ?_
  rw [Bool.eq_false_iff]
  exact fun heq => hne (Value.hash_of_equals (hkeys' _ ho) (hkeys' _ ho') heq)

end Firsts

end Merge

namespace Property

variable {p : Property} {remote stored : Value}

def MergesElements (p : Property) (remote stored : Value) (ms : List Value) : Prop :=
  List.Forall₂ (fun r m => (p.mergeObject r (counterpart p.setHashes stored.items r)).result = .ok m)
    remote.items ms

theorem MergesElements.everywhere {test : Value → Bool} (ht : Value.Inherited test) {ms : List Value}
    (h : p.MergesElements remote stored ms) (hr : Value.everywhere test remote = true)
    (hs : Value.everywhere test stored = true) : ∀ m ∈ ms, Value.everywhere test m = true := by
  intro m hm
  obtain ⟨r, hr', hmerge⟩ := Lists.exists_left h hm
  have hcounterpart : Value.everywhere test (counterpart p.setHashes stored.items r) = true :=
    (counterpart_mem _ _ r).elim (fun h => h ▸ ht.null) (Value.everywhere_items hs _)
  exact mergeObject_inherits ht (fun c _ => coerce_inherits ht c) r _ m
    (Value.everywhere_items hr r hr') hcounterpart hmerge

/-- A set holds the first merged element of each hash, so no two that are equal. A merged element is
equal to one that the set holds, unless it collides with one: then it is lost. -/
theorem mergeSet_keeps (hr : remote.keysDistinct = true) (hs : stored.keysDistinct = true) {v : Value}
    (h : (p.mergeSet remote stored).result = .ok v) :
    ∃ ms vs, p.MergesElements remote stored ms ∧ v = .array vs ∧ vs = firsts [] ms ∧
      (∀ m ∈ ms, ∃ o ∈ vs, o.equals m = true ∨ Collision o m) ∧
      (∀ m ∈ ms, (∃ o ∈ vs, o.equals m = true) ↔ ∀ o ∈ vs, ¬Collision o m) ∧
      vs.Pairwise fun o o' => o.equals o' = false := by
  obtain ⟨rs, vs, hrs, hvs, rfl⟩ := ok_mergeSet.mp h
  obtain rfl := remoteItems_ok hrs
  obtain ⟨ms, hms, hfirsts⟩ := ok_distinct.mp hvs
  have hkeys : ∀ m ∈ ms, m.keysDistinct = true :=
    MergesElements.everywhere Value.inherited_ownKeysDistinct hms hr hs
  subst hfirsts
  exact ⟨ms, _, hms, rfl, rfl, firsts_cover hkeys, firsts_found_iff hkeys, firsts_different hkeys⟩

def login (v : Value) : Value := .object [("login", v)]

/-- Accounts of two logins with one checksum, and one of them again. -/
def sentAccounts : Value :=
  .array [login (.string "plumless"), login (.string "buckeroo"), login (.string "plumless")]

/-- Of the three accounts the first is kept. The last is equal to it, the second is not. -/
theorem sentAccounts_kept :
    sentAccounts.keysDistinct = true ∧ Value.null.keysDistinct = true ∧
      (sampleAccounts.mergeSet sentAccounts .null).result =
        .ok (.array [account (.string "plumless") .null]) ∧
      ∃ ms vs, sampleAccounts.MergesElements sentAccounts .null ms ∧
        Value.array [account (.string "plumless") .null] = .array vs ∧ vs = firsts [] ms ∧
        (∀ m ∈ ms, ∃ o ∈ vs, o.equals m = true ∨ Collision o m) ∧
        (∀ m ∈ ms, (∃ o ∈ vs, o.equals m = true) ↔ ∀ o ∈ vs, ¬Collision o m) ∧
        vs.Pairwise fun o o' => o.equals o' = false := by
  have hkeys : sentAccounts.keysDistinct = true := by decide +kernel
  have hmerged : (sampleAccounts.mergeSet sentAccounts .null).result =
      .ok (.array [account (.string "plumless") .null]) := by decide +kernel
  exact ⟨hkeys, rfl, hmerged, mergeSet_keeps hkeys rfl hmerged⟩

/-- Accounts are lost: one whose login has the checksum of another login, and one whose login is the
text that stands for no login at all. -/
theorem accounts_lost :
    (∃ m, sampleAccounts.MergesElements
        (.array [login (.string "plumless"), login (.string "buckeroo")]) .null
        [account (.string "plumless") .null, m] ∧
      (sampleAccounts.mergeSet (.array [login (.string "plumless"), login (.string "buckeroo")])
        .null).result = .ok (.array [account (.string "plumless") .null]) ∧
      (account (.string "plumless") .null).equals m = false) ∧
    ∃ m, sampleAccounts.MergesElements (.array [login .null, login (.string "null")]) .null
        [account .null .null, m] ∧
      (sampleAccounts.mergeSet (.array [login .null, login (.string "null")]) .null).result =
        .ok (.array [account .null .null]) ∧
      (account .null .null).equals m = false := by
  refine ⟨⟨account (.string "buckeroo") .null, ?_, ?_, ?_⟩,
    ⟨account (.string "null") .null, ?_, ?_, ?_⟩⟩
  · exact .cons (by decide +kernel) (.cons (by decide +kernel) .nil)
  · decide +kernel
  · decide +kernel
  · exact .cons (by decide +kernel) (.cons (by decide +kernel) .nil)
  · decide +kernel
  · decide +kernel

end Property

end Reconciliation
