import Reconciliation.Proofs.Merge.Meeting
import Reconciliation.Proofs.Merge.PayloadForm
import Reconciliation.Proofs.State.Secrets

/-! # Sets without a correlation key

Without a key, whole elements are looked up as they are, although the remote side leaves out the
write-only fields and goes by payload names. So a remote element that is the same item as a stored
one does not find it, and what is stored for its write-only fields is not kept.
-/
namespace Reconciliation

open Merge
open Value (Collision)

namespace Property

variable {p : Property}

/-- A value holds, for the write-only children, what another one holds. A child after which another
is stored under its name is left out. -/
def KeepsSecrets (p : Property) (kept v : Value) : Prop :=
  ∀ c ∈ p.children, c.writeOnly = true → p.lastNamed? c.stateName = some c →
    Value.field v.entries c.stateName = Value.field kept.entries c.stateName

theorem keepsSecrets_mergeObject {remote stored m : Value}
    (h : (p.mergeObject remote stored).result = .ok m) : p.KeepsSecrets stored m :=
  fun _ _ hw hlast => field_writeOnly h hlast hw

theorem KeepsSecrets.congr {kept v w : Value} (h : p.KeepsSecrets v w) :
    p.KeepsSecrets kept w ↔ p.KeepsSecrets kept v :=
  forall₄_congr fun c hc hw hlast => by rw [h c hc hw hlast]

def Alike (v w : Value) : Prop := v.equals w = true ∨ Collision v w

theorem counterpart_alike (hkey : p.correlationKey = []) {locals : List (Entries Value)}
    {remote : Value} (hs : ∀ q ∈ locals, (Value.object q).keysDistinct = true)
    (hr : remote.keysDistinct = true) :
    FirstOf (fun q => Alike (.object q) remote) locals
      (counterpart p.setHashes (locals.map .object) remote) := by
  refine firstOf_counterpart fun q hq => ?_
  rw [setHashes_whole hkey]
  exact Value.hash_eq_iff (hs q hq) hr

/-- A stored element is not equal to a remote one that lacks one of its fields. -/
theorem not_equals_of_lacks {stored remote : Entries Value} {key : String} (hs : key ∈ stored.keys)
    (hr : key ∉ remote.keys) : (Value.object stored).equals (.object remote) = false := by
  rw [Bool.eq_false_iff]
  intro heq
  have hkeys := (Value.equals_object.mp heq).1
  exact hr ((hkeys key).mp hs)

/-- Every element is merged with the first stored element that is equal to it as a whole or collides
with it, and holds the secrets of that one: those of a stored element that is the same item, if and
only if the two hold the same. If the remote element lacks a field under its state name, because it is
write-only or stored under another name, and no stored element collides with it, there is no such
element, and secrets are kept where they are null. -/
theorem mergeSet_alike (hkey : p.correlationKey = []) {remote locals : List (Entries Value)}
    (hr : ∀ r ∈ remote, (Value.object r).keysDistinct = true)
    (hs : ∀ l ∈ locals, (Value.object l).keysDistinct = true)
    (hfields : ∀ l ∈ locals, ∀ c ∈ p.children, c.stateName ∈ l.keys) {v : Value}
    (h : (p.mergeSet (.array (remote.map .object)) (.array (locals.map .object))).result = .ok v) :
    ∃ ms vs, v = .array vs ∧ vs.Sublist ms ∧
      List.Forall₂ (fun r m => ∃ l, FirstOf (fun q => Alike (.object q) (.object r)) locals l ∧
        (p.mergeObject (.object r) l).result = .ok m ∧
        ∀ q ∈ locals, p.sameItem (.object q) (.object r) = true →
          (p.KeepsSecrets (.object q) m ↔ p.KeepsSecrets (.object q) l) ∧
          ((∃ c ∈ p.children, c.stateName ∉ Entries.keys r) →
            (∀ q' ∈ locals, ¬Collision (.object q') (.object r)) →
            (p.KeepsSecrets (.object q) m ↔ p.KeepsSecrets (.object q) .null))) remote ms := by
  obtain ⟨rs, vs, hrs, hvs, rfl⟩ := ok_mergeSet.mp h
  obtain rfl := Except.ok.inj hrs
  obtain ⟨ms, hms, rfl⟩ := ok_distinct.mp hvs
  rw [List.forall₂_map_left_iff] at hms
  refine ⟨ms, _, rfl, sublist_firsts [] ms, ?_⟩
  refine Lists.forall₂_imp_of_mem hms fun r hr' m _ hm => ?_
  have hfirst := counterpart_alike hkey hs (hr r hr')
  rw [Value.items] at hm
  refine ⟨_, hfirst, hm, fun q hq _ => ⟨(keepsSecrets_mergeObject hm).congr, ?_⟩⟩
  rintro ⟨c, hc, hlacks⟩ hcollision
  generalize counterpart p.setHashes (locals.map .object) (.object r) = l at hfirst hm
  cases hfirst with
  | none => exact (keepsSecrets_mergeObject hm).congr
  | @some before after l place _ hl =>
    have hmem : l ∈ locals := by simp [place]
    rw [Alike, not_equals_of_lacks (hfields l hmem c hc) hlacks] at hl
    exact absurd (hl.resolve_left Bool.false_ne_true) (hcollision l hmem)

/-! ## Accounts without a key -/

def plainAccounts : Property := { sampleAccounts with correlationKey := [] }

def plainStored : List (Entries Value) :=
  [[("login", .string "a"), ("token", .string "A")], [("login", .string "b"), ("token", .null)]]

def plainRemote : List (Entries Value) := [[("login", .string "b")], [("login", .string "a")]]

/-- Neither account is found. The one that has no token is stored as it was, the other loses its
token. -/
theorem plainAccounts_alike :
    plainAccounts.correlationKey = [] ∧
      (∀ r ∈ plainRemote, (Value.object r).keysDistinct = true) ∧
      (∀ l ∈ plainStored, (Value.object l).keysDistinct = true) ∧
      (∀ l ∈ plainStored, ∀ c ∈ plainAccounts.children, c.stateName ∈ Entries.keys l) ∧
      (plainAccounts.mergeSet (.array (plainRemote.map .object))
        (.array (plainStored.map .object))).result =
          .ok (.array [account (.string "b") .null, account (.string "a") .null]) ∧
      ∃ ms vs, Value.array [account (.string "b") .null, account (.string "a") .null] = .array vs ∧
        vs.Sublist ms ∧
        List.Forall₂ (fun r m =>
          ∃ l, FirstOf (fun q => Alike (.object q) (.object r)) plainStored l ∧
          (plainAccounts.mergeObject (.object r) l).result = .ok m ∧
          ∀ q ∈ plainStored, plainAccounts.sameItem (.object q) (.object r) = true →
            (plainAccounts.KeepsSecrets (.object q) m ↔ plainAccounts.KeepsSecrets (.object q) l) ∧
            ((∃ c ∈ plainAccounts.children, c.stateName ∉ Entries.keys r) →
              (∀ q' ∈ plainStored, ¬Collision (.object q') (.object r)) →
              (plainAccounts.KeepsSecrets (.object q) m ↔
                plainAccounts.KeepsSecrets (.object q) .null))) plainRemote ms := by
  have hkey : plainAccounts.correlationKey = [] := rfl
  have hremote : ∀ r ∈ plainRemote, (Value.object r).keysDistinct = true := by decide +kernel
  have hstored : ∀ l ∈ plainStored, (Value.object l).keysDistinct = true := by decide +kernel
  have hfields : ∀ l ∈ plainStored, ∀ c ∈ plainAccounts.children,
      c.stateName ∈ Entries.keys l := by decide +kernel
  have hmerged : (plainAccounts.mergeSet (.array (plainRemote.map .object))
      (.array (plainStored.map .object))).result =
        .ok (.array [account (.string "b") .null, account (.string "a") .null]) := by decide +kernel
  exact ⟨hkey, hremote, hstored, hfields, hmerged,
    mergeSet_alike hkey hremote hstored hfields hmerged⟩

theorem oneToOne_singleton (same : Value → Value → Bool) (s r : Value) :
    OneToOne same [s] [r] := by
  rw [oneToOne_iff, List.forall_mem_singleton, List.forall_mem_singleton]
  exact ⟨List.countP_le_length, List.countP_le_length⟩

/-- An account is read as it is stored, and its token is not kept. -/
theorem plainAccounts_lose_token :
    plainAccounts.FitsElement (account (.string "a") (.string "A")) ∧
      (∀ c ∈ plainAccounts.children, c.writeOnly = true →
        c.name ∉ Entries.keys (login (.string "a")).entries) ∧
      OneToOne plainAccounts.sameItem [account (.string "a") (.string "A")] [login (.string "a")] ∧
      plainAccounts.sameItem (account (.string "a") (.string "A")) (login (.string "a")) = true ∧
      (plainAccounts.mergeSet (.array [login (.string "a")])
        (.array [account (.string "a") (.string "A")])).result =
          .ok (.array [account (.string "a") .null]) ∧
      ¬plainAccounts.KeepsSecrets (account (.string "a") (.string "A"))
        (account (.string "a") .null) := by
  refine ⟨.mk (by decide +kernel) ?_, by decide +kernel, oneToOne_singleton _ _ _, by decide +kernel,
    by decide +kernel, ?_⟩
  · intro c hc
    rcases List.mem_cons.mp hc with rfl | hc
    · have hlogin : Value.field [("login", .string "a"), ("token", .string "A")]
          (Property.stateName { name := "login", kind := .string }) = .string "a" := by
        decide +kernel
      rw [hlogin]
      exact .scalar (.string "a")
    · obtain rfl := List.mem_singleton.mp hc
      exact .writeOnly rfl
  · intro hholds
    have htoken := hholds { name := "token", kind := .string, writeOnly := true }
      (by simp [Property.children, plainAccounts, sampleAccounts]) rfl (by decide +kernel)
    exact absurd htoken (by decide +kernel)

end Property

end Reconciliation
