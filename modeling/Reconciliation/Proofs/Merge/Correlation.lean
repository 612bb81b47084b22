import Reconciliation.Proofs.Merge.Reading
import Reconciliation.Proofs.Merge.Recognition
import Reconciliation.Proofs.Value.Decision

/-! # Elements told apart by a correlation key

The key fields of an element are read under payload names remotely and under state names in storage.
String fields are stored as they are read, so a stored element is found by the key of the remote
element it came from, and what it keeps passes from one read to the next.
-/
namespace Reconciliation

open Merge

namespace Property

structure StringKeyed (p : Property) : Prop where
  kind : p.kind = .set
  key : p.correlationKey ≠ []
  fields : ∀ field ∈ p.correlationKey,
    ∃ c, p.element.bind (·.find? field) = some c ∧ c.writeOnly = false ∧ c.kind = .string

def keyValues (p : Property) (remote : Entries Value) : List Value :=
  p.correlationKey.map (Value.field remote)

def found? (p : Property) (stored : List Value) (key : List Value) : Option Value :=
  stored.find? fun s => p.setHashes.stored s == (Value.array key).hash

/-- An element that holds, for every write-only child, what other entries hold for it. -/
def Keeps (p : Property) (kept : Entries Value) (v : Value) : Prop :=
  ∃ es, v = .object es ∧
    ∀ c ∈ p.children, c.writeOnly = true →
      Entries.get? es c.stateName = some (Value.field kept c.stateName)

/-- A read of a set: the remote elements are objects that differ in the hashes of their keys, and
each of them leaves an element. -/
structure Read (p : Property) (stored : List Value) (remote : List (Entries Value))
    (merged : List Value) : Prop where
  merges : (p.mergeSet (.array (remote.map .object)) (.array stored)).result = .ok (.array merged)
  apart : (remote.map fun es => p.setHashes.remote (.object es)).Nodup
  complete : merged.length = remote.length

inductive Reads (p : Property) : List Value → List (List (Entries Value)) → List Value → Prop
  | nil (stored : List Value) : Reads p stored [] stored
  | cons {stored merged last : List Value} {remote : List (Entries Value)}
    {remotes : List (List (Entries Value))} (read : p.Read stored remote merged)
    (rest : Reads p merged remotes last) : Reads p stored (remote :: remotes) last

theorem coerce_string {p : Property} (hw : p.writeOnly = false) (hk : p.kind = .string)
    {remote stored v : Value} (h : (coerce p remote stored).result = .ok v) : v = remote := by
  rw [coerce_eq, hw, hk] at h
  change Merge.scalar p.name .string remote = .ok v at h
  cases remote <;> cases h <;> rfl

/-! ## One read -/

section Keyed

variable {p : Property} (hp : p.StringKeyed)
include hp

theorem StringKeyed.wraps : p.wraps = false := by
  rw [Property.wraps, hp.kind]
  rfl

theorem StringKeyed.remote_hash (es : Entries Value) :
    p.setHashes.remote (.object es) = (Value.array (p.keyValues es)).hash := by
  rw [setHashes_keyed hp.key]
  rfl

theorem StringKeyed.stored_hash (es : Entries Value) :
    p.setHashes.stored (.object es) =
      (Value.array (p.correlationKey.map fun f => Value.field es (storedField p.element f))).hash := by
  rw [setHashes_keyed hp.key]
  simp only [storedKey, Value.correlationHash, List.map_map]
  rfl

/-- A stored element is found by the key of the remote element it came from. -/
theorem StringKeyed.hash_assembled (hn : p.NamesDistinct) {remote stored es : Entries Value}
    (h : p.Assembled remote stored es) :
    p.setHashes.stored (.object es) = p.setHashes.remote (.object remote) := by
  rw [hp.stored_hash, hp.remote_hash, keyValues]
  congr 2
  apply List.map_congr_left
  intro field hfield
  obtain ⟨c, hfind, hw, hk⟩ := hp.fields field hfield
  obtain ⟨s, hs, hc⟩ := Option.bind_eq_some_iff.mp hfind
  have hmem : c ∈ p.children := by
    rw [children_of_element hs]
    exact List.mem_of_find?_eq_some hc
  have hname : c.name = field := by simpa using List.find?_some hc
  have hcoerce := coerce_string hw hk (h.field_eq hn hmem)
  rw [storedField, hfind, ← hname]
  exact hcoerce

/-- A remote element leaves an object that has its key and keeps what its counterpart holds. -/
theorem StringKeyed.ok_mergeElement (hn : p.NamesDistinct) {remote : Entries Value}
    {stored v : Value} (h : (p.mergeObject (.object remote) stored).result = .ok v) :
    p.setHashes.stored v = p.setHashes.remote (.object remote) ∧ p.Keeps stored.entries v := by
  obtain ⟨-, r, es, hr, ha, hv⟩ := ok_mergeObject.mp h
  obtain rfl := Except.ok.inj hr
  rw [hp.wraps, ha.ofList_eq hn] at hv
  subst hv
  refine ⟨hp.hash_assembled hn ha, es, rfl, ?_⟩
  intro c hc hw
  obtain ⟨w, hw', hcoerce⟩ := ha.coerce_of_mem hc
  rw [coerce_writeOnly hw] at hcoerce
  rw [Entries.get?_of_mem (ha.keys ▸ hn) hw', ← Except.ok.inj hcoerce]

/-- Each remote element is merged with the stored element that its key finds. -/
theorem Read.merged {stored merged : List Value} {remote : List (Entries Value)}
    (h : p.Read stored remote merged) :
    List.Forall₂ (fun es v => (p.mergeObject (.object es)
      ((p.found? stored (p.keyValues es)).getD .null)).result = .ok v) remote merged := by
  obtain ⟨rs, vs, hrs, hvs, hv⟩ := ok_mergeSet.mp h.merges
  obtain rfl := Except.ok.inj hrs
  obtain rfl := Value.array.inj hv
  have hsize : merged.length = (remote.map Value.object).length := by
    rw [List.length_map]
    exact h.complete
  have hmerged := forall₂_of_distinct hvs hsize
  rw [List.forall₂_map_left_iff] at hmerged
  refine hmerged.imp ?_
  intro es v hv
  rw [Value.items, counterpart, hp.remote_hash] at hv
  exact hv

/-- What a key finds before a read, it finds after it in the element that the read left for it. -/
theorem Read.finds (hn : p.NamesDistinct) {stored merged : List Value}
    {remote : List (Entries Value)} (h : p.Read stored remote merged) {j : Nat}
    {es : Entries Value} (hj : remote[j]? = some es) {q : Value}
    (hq : p.found? stored (p.keyValues es) = some q) :
    ∃ v, merged[j]? = some v ∧ p.found? merged (p.keyValues es) = some v ∧ p.Keeps q.entries v := by
  have hmerged := Read.merged hp h
  obtain ⟨v, hv, hm⟩ := Lists.getElem?_left hmerged hj
  rw [hq] at hm
  obtain ⟨hhash, hkeeps⟩ := hp.ok_mergeElement hn hm
  refine ⟨v, hv, ?_, hkeeps⟩
  -- The hashes stored are the hashes read, so no two of them are the same.
  have hmap : merged.map p.setHashes.stored = remote.map fun es => p.setHashes.remote (.object es) := by
    rw [← List.forall₂_eq_eq_eq, List.forall₂_map_left_iff, List.forall₂_map_right_iff]
    refine hmerged.flip.imp ?_
    intro w fs hw
    exact (hp.ok_mergeElement hn hw).1
  have hnodup : (merged.map p.setHashes.stored).Nodup := by
    rw [hmap]
    exact h.apart
  have hfind := Lists.find?_of_nodup hnodup (List.mem_of_getElem? hv)
  rw [found?, ← hp.remote_hash, ← hhash]
  exact hfind

/-- Through reads that all have an element with one key, the key finds what it found at first. -/
theorem Reads.finds (hn : p.NamesDistinct) {stored last : List Value}
    {remotes : List (List (Entries Value))} (h : p.Reads stored remotes last) {key : List Value}
    (hkey : ∀ remote ∈ remotes, ∃ es ∈ remote, p.keyValues es = key) {q : Value}
    (hq : p.found? stored key = some q) :
    ∃ v, p.found? last key = some v ∧ ∀ c ∈ p.children, c.writeOnly = true →
      Value.field v.entries c.stateName = Value.field q.entries c.stateName := by
  induction h generalizing q with
  | nil stored =>
    refine ⟨q, hq, ?_⟩
    intro c hc hw
    rfl
  | @cons stored merged last remote remotes read rest ih =>
    obtain ⟨hfirst, hrest⟩ := List.forall_mem_cons.mp hkey
    obtain ⟨es, hes, rfl⟩ := hfirst
    obtain ⟨j, hj⟩ := List.getElem?_of_mem hes
    obtain ⟨v, -, hv, fs, rfl, hfs⟩ := Read.finds hp hn read hj hq
    obtain ⟨w, hw, hsame⟩ := ih hrest hv
    refine ⟨w, hw, ?_⟩
    intro c hc hcw
    rw [hsame c hc hcw]
    change Value.field fs c.stateName = _
    rw [Value.field, hfs c hc hcw]
    rfl

/-- However the elements of a set move and change from read to read: the element that the last read
leaves for a key holds, for every write-only child, what the element that the key found at first
holds. -/
theorem secrets_across_reads (hn : p.NamesDistinct) {stored before merged : List Value}
    {remotes : List (List (Entries Value))} {last : List (Entries Value)}
    (hreads : p.Reads stored remotes before) (hlast : p.Read before last merged)
    {key : List Value} (hkey : ∀ remote ∈ remotes, ∃ es ∈ remote, p.keyValues es = key) {q : Value}
    (hq : p.found? stored key = some q) {j : Nat} {es : Entries Value} (hj : last[j]? = some es)
    (hes : p.keyValues es = key) :
    ∃ v, merged[j]? = some v ∧ p.Keeps q.entries v := by
  obtain ⟨w, hw, hsame⟩ := Reads.finds hp hn hreads hkey hq
  subst hes
  obtain ⟨v, hv, -, fs, rfl, hfs⟩ := Read.finds hp hn hlast hj hw
  refine ⟨.object fs, hv, fs, rfl, ?_⟩
  intro c hc hcw
  rw [hfs c hc hcw, hsame c hc hcw]

end Keyed

/-! ## Two reads of a set of accounts -/

theorem sampleAccounts_keyed : sampleAccounts.StringKeyed where
  kind := rfl
  key := by decide
  fields := by
    intro field hfield
    obtain rfl := List.mem_singleton.mp hfield
    exact ⟨_, rfl, rfl, rfl⟩

def account (login token : Value) : Value := .object [("login", login), ("token", token)]

/-- The accounts change places in the first read. In the second one a new account stands in the place
of the other. -/
theorem secrets_sampleAccounts :
    ∃ v, [account (.string "c") .null, account (.string "a") (.string "A")][1]? = some v ∧
      sampleAccounts.Keeps [("login", .string "a"), ("token", .string "A")] v := by
  have hfirst : sampleAccounts.Read
      [account (.string "a") (.string "A"), account (.string "b") (.string "B")]
      [[("login", .string "b")], [("login", .string "a"), ("seen", .int 3)]]
      [account (.string "b") (.string "B"), account (.string "a") (.string "A")] :=
    ⟨by decide +kernel, by decide +kernel, rfl⟩
  have hlast : sampleAccounts.Read
      [account (.string "b") (.string "B"), account (.string "a") (.string "A")]
      [[("login", .string "c")], [("login", .string "a")]]
      [account (.string "c") .null, account (.string "a") (.string "A")] :=
    ⟨by decide +kernel, by decide +kernel, rfl⟩
  have hkey : ∀ remote ∈ [[[("login", .string "b")], [("login", .string "a"), ("seen", .int 3)]]],
      ∃ es ∈ remote, sampleAccounts.keyValues es = [.string "a"] := by
    intro remote hremote
    obtain rfl := List.mem_singleton.mp hremote
    exact ⟨_, List.mem_cons_of_mem _ List.mem_cons_self, rfl⟩
  have hfound : sampleAccounts.found?
      [account (.string "a") (.string "A"), account (.string "b") (.string "B")] [.string "a"] =
      some (account (.string "a") (.string "A")) := by decide +kernel
  have hnames : sampleAccounts.NamesDistinct := show List.Nodup _ by decide +kernel
  exact secrets_across_reads sampleAccounts_keyed hnames (.cons hfirst (.nil _)) hlast hkey hfound
    rfl rfl

end Property

end Reconciliation
