import Mathlib.Data.List.Dedup
import Reconciliation.Proofs.Merge.Again
import Reconciliation.Proofs.Schema.StateName

/-! # Children that are stored under one name

Declared children differ in their payload names, but not always in their state names: names with and
without hyphens or capitals meet, and a preferred name may be any. A merged object has one entry for
each state name, and of the children with that name the last one is stored. So no declared field is
lost if and only if the state names are different.
-/
namespace Reconciliation

open Merge

namespace Property

def lastNamed? (p : Property) (name : String) : Option Property :=
  p.children.reverse.find? fun c => c.stateName == name

def Stores (remote stored : Entries Value) (c : Property) (v : Value) : Prop :=
  (coerce c (Value.field remote c.name) (Value.field stored c.stateName)).result = .ok v

structure KeepsFields (p : Property) (remote stored merged : Entries Value) : Prop where
  size : merged.length = p.children.length
  values : ∀ c ∈ p.children, ∃ v, Entries.get? merged c.stateName = some v ∧ c.Stores remote stored v

theorem rel_find?_get? {R : Property → Value → Prop} {cs : List Property} {es : Entries Value}
    (hkeys : es.keys = cs.map stateName) (h : List.Forall₂ (fun c e => R c e.2) cs es)
    (name : String) :
    Option.Rel R (cs.find? fun c => c.stateName == name) (es.get? name) := by
  induction h with
  | nil => exact .none
  | @cons c e cs es he _ ih =>
    obtain ⟨k, v⟩ := e
    rw [Entries.keys_cons, List.map_cons, List.cons.injEq] at hkeys
    obtain ⟨rfl, hkeys⟩ := hkeys
    rw [List.find?_cons, Entries.get?_cons]
    by_cases hname : c.stateName = name
    · rw [beq_iff_eq.mpr hname, if_pos hname.symm]
      exact .some he
    · rw [beq_eq_false_iff_ne.mpr hname, if_neg (Ne.symm hname)]
      exact ih hkeys

namespace Assembled

variable {p : Property} {remote stored es : Entries Value}

theorem rel_ofList (h : p.Assembled remote stored es) (name : String) :
    Option.Rel (Stores remote stored) (p.lastNamed? name) ((Entries.ofList es).get? name) := by
  rw [Entries.get?_ofList]
  apply rel_find?_get?
  · rw [Entries.keys, List.map_reverse, List.map_reverse]
    exact congrArg List.reverse h.keys
  · exact List.forall₂_reverse_iff.mpr h.values

theorem length_ofList (h : p.Assembled remote stored es) :
    (Entries.ofList es).length = (p.children.map stateName).dedup.length := by
  rw [Entries.length_ofList, h.keys]

/-- Nothing is lost if and only if no two children have one state name. -/
theorem keepsFields_iff (h : p.Assembled remote stored es) :
    p.KeepsFields remote stored (Entries.ofList es) ↔ p.NamesDistinct := by
  constructor
  · intro hkeeps
    have hsize : (p.children.map stateName).dedup.length = (p.children.map stateName).length := by
      rw [← h.length_ofList, hkeeps.size, List.length_map]
    rw [NamesDistinct, ← List.dedup_eq_self]
    exact (List.dedup_sublist _).eq_of_length hsize
  · intro hn
    constructor
    · rw [h.length_ofList, List.dedup_eq_self.mpr hn, List.length_map]
    · intro c hc
      obtain ⟨v, hv, hcoerce⟩ := h.coerce_of_mem hc
      refine ⟨v, ?_, hcoerce⟩
      rw [h.ofList_eq hn]
      exact Entries.get?_of_mem (h.keys ▸ hn) hv

end Assembled

/-- What the merged objects of a declared schema are made of: an entry for each state name, with the
merged value of the last child of that name. Every declared field is there with its own value if and
only if the state names of the children are different, as they are where all children are stored as
they are named. -/
theorem mergeObject_fields {declaration : Value} {s : Schema}
    (hs : Declaration.schema declaration = .ok s) {p : Property} (hp : s.Reaches p)
    {remote stored v : Value} (h : (p.mergeObject remote stored).result = .ok v) :
    ∃ es, v = wrapped p.wraps es ∧
      (∀ name, Option.Rel (Stores remote.entries stored.entries) (p.lastNamed? name)
        (Entries.get? es name)) ∧
      es.length = (p.children.map stateName).dedup.length ∧
      (p.KeepsFields remote.entries stored.entries es ↔ p.NamesDistinct) ∧
      ((∀ c ∈ p.children, c.StoredAsNamed) → p.KeepsFields remote.entries stored.entries es) := by
  obtain ⟨-, r, es, hr, ha, rfl⟩ := ok_mergeObject.mp h
  obtain rfl := remoteEntries_ok hr
  refine ⟨_, rfl, ha.rel_ofList, ha.length_ofList, ha.keepsFields_iff, ?_⟩
  intro hnamed
  exact ha.keepsFields_iff.mpr (Declaration.namesDistinct_of_reaches hs hp hnamed)

/-! ## A secret that is stored under the name of another field -/

def apiToken : Property := { name := "apiToken", kind := .string, writeOnly := true }

def shownToken : Property := { name := "api-token", kind := .string }

def vault : Property :=
  { name := "vault", kind := .object, element := some ⟨[apiToken, shownToken], true⟩ }

/-- The payload names differ, so the declaration is read; both tokens are stored as `api_token`. -/
def vaultDeclaration : Value :=
  .object [("wrap_nested_objects", .bool true), ("properties", .array [
    .object [("name", .string "vault"), ("type", .string "object"), ("properties", .array [
      .object [("name", .string "apiToken"), ("type", .string "string"),
        ("write_only", .bool true)],
      .object [("name", .string "api-token"), ("type", .string "string")]])]])]

def sentVault : Value := .object [("api-token", .string "sent")]

def storedVault : Value := .array [.object [("api_token", .string "kept")]]

theorem vault_fields : Declaration.schema vaultDeclaration = .ok ⟨[vault], true⟩ ∧
    ∃ es, Value.array [.object [("api_token", .string "sent")]] = wrapped vault.wraps es ∧
      Option.Rel (Stores sentVault.entries storedVault.entries) (some shownToken)
        (Entries.get? es "api_token") ∧
      es.length = (vault.children.map stateName).dedup.length := by
  have hs : Declaration.schema vaultDeclaration = .ok ⟨[vault], true⟩ := rfl
  have hmerge : (vault.mergeObject sentVault storedVault).result =
      .ok (.array [.object [("api_token", .string "sent")]]) := by decide +kernel
  have hlast : vault.lastNamed? "api_token" = some shownToken := by decide +kernel
  obtain ⟨es, hes, hvalues, hsize, -, -⟩ := mergeObject_fields hs (.top List.mem_cons_self) hmerge
  exact ⟨hs, es, hes, hlast ▸ hvalues "api_token", hsize⟩

/-- The stored secret is overwritten with what is received for the other token. -/
theorem vault_loses_token : Declaration.schema vaultDeclaration = .ok ⟨[vault], true⟩ ∧
    (vault.mergeObject sentVault storedVault).result =
      .ok (.array [.object [("api_token", .string "sent")]]) ∧
    ¬∃ es, Value.array [.object [("api_token", .string "sent")]] = wrapped vault.wraps es ∧
      vault.KeepsFields sentVault.entries storedVault.entries es := by
  refine ⟨rfl, by decide +kernel, ?_⟩
  rintro ⟨es, hes, hkeeps⟩
  obtain ⟨v, hv, hkept⟩ := hkeeps.values apiToken List.mem_cons_self
  have hsent : Entries.get? es apiToken.stateName = some (.string "sent") := by
    have hentries := congrArg Value.entries hes
    rw [entries_wrapped] at hentries
    rw [← hentries]
    decide +kernel
  obtain rfl := Option.some.inj (hsent.symm.trans hv)
  rw [Stores] at hkept
  exact absurd hkept (by decide +kernel)

end Property

end Reconciliation
