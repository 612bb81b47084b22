import Reconciliation.Proofs.Merge.Distinct
import Reconciliation.Proofs.Merge.Naming

/-! # Stored elements that a correlation key finds

A remote element takes its write-only values from the first stored element that it meets. The two
have equal key fields, unless their keys collide, or the remote element is no object: then it is
looked up as a whole, and meets the element that holds it in its only key field.
-/
namespace Reconciliation

open Merge
open Value (Collision)

namespace Value

theorem unwrapped_eq (v : Value) : v.unwrapped = v ∨ ∃ es, v = .array [.object es] := by
  unfold unwrapped
  split
  · exact Or.inr ⟨_, rfl⟩
  · exact Or.inl rfl

end Value

namespace Merge

theorem form_of_remoteEntries {name : String} {remote : Value} {es : Entries Value}
    (h : remoteEntries name remote = .ok es) :
    remote = .null ∨ remote = .object es ∨ remote = .array [.object es] := by
  rcases remote.unwrapped_eq with hplain | ⟨fs, rfl⟩
  · rw [remoteEntries, hplain] at h
    cases remote with
    | null => exact Or.inl rfl
    | object fs => exact Or.inr (Or.inl (congrArg Value.object (Except.ok.inj h)))
    | _ => cases h
  · obtain rfl := Except.ok.inj h
    exact Or.inr (Or.inr rfl)

inductive FirstOf (test : Entries Value → Prop) (locals : List (Entries Value)) : Value → Prop
  | none (h : ∀ q ∈ locals, ¬test q) : FirstOf test locals .null
  | some {before after : List (Entries Value)} {q : Entries Value} (place : locals = before ++ q :: after)
    (h : ∀ q' ∈ before, ¬test q') (hq : test q) : FirstOf test locals (.object q)

/-- The counterpart of a remote element is the first stored element with a certain property, if the
hashes tell which stored elements have it. -/
theorem firstOf_counterpart {h : Hashes} {test : Entries Value → Prop}
    {locals : List (Entries Value)} {remote : Value}
    (htest : ∀ q ∈ locals, h.stored (.object q) = h.remote remote ↔ test q) :
    FirstOf test locals (counterpart h (locals.map .object) remote) := by
  have hhash : ∀ q ∈ locals,
      ((fun s => h.stored s == h.remote remote) ∘ Value.object) q = true ↔ test q := by
    intro q hq
    rw [Function.comp_apply, beq_iff_eq]
    exact htest q hq
  rw [counterpart, List.find?_map]
  cases hfind : locals.find? _ with
  | none =>
    refine .none fun q hq => ?_
    rw [← hhash q hq]
    exact List.find?_eq_none.mp hfind q hq
  | some q =>
    obtain ⟨hq, before, after, rfl, hbefore⟩ := List.find?_eq_some_iff_append.mp hfind
    refine .some rfl ?_ ((hhash q (by simp)).mp hq)
    intro q' hq'
    rw [← hhash q' (by simp [hq'])]
    simpa using hbefore q' hq'

end Merge

namespace Property

variable {p : Property}

/-- A stored and a remote element hold equal values in every key field; a missing one is null. -/
def SameKey (p : Property) (stored remote : Entries Value) : Prop :=
  ∀ field ∈ p.correlationKey,
    (Value.field stored (storedField p.element field)).equals (Value.field remote field) = true

instance (stored remote : Entries Value) : Decidable (p.SameKey stored remote) :=
  inferInstanceAs (Decidable (∀ field ∈ p.correlationKey, _ = true))

inductive Meets (p : Property) (stored : Entries Value) : Value → Prop
  | key {remote : Entries Value} (h : p.SameKey stored remote) : Meets p stored (.object remote)
  /-- The keys are not equal, but their hashes are. -/
  | collision {remote : Value}
    (h : Collision ((Value.object stored).keyOf p.storedKey) (remote.keyOf p.correlationKey)) :
    Meets p stored remote
  /-- The remote object is in an array, and the only key field of the stored element holds it. -/
  | whole {field : String} {remote : Entries Value} (hk : p.correlationKey = [field])
    (h : (Value.field stored (storedField p.element field)).equals (.object remote) = true) :
    Meets p stored (.array [.object remote])

theorem sameKey_iff {stored remote : Entries Value} : p.SameKey stored remote ↔
    ((Value.object stored).keyOf p.storedKey).equals
      ((Value.object remote).keyOf p.correlationKey) = true := by
  rw [Value.keyOf, Value.keyOf, Value.equals_array, storedKey, List.map_map,
    List.forall₂_map_left_iff, List.forall₂_map_right_iff, List.forall₂_same]
  rfl

/-- A remote element that is an array is looked up by the one object that it holds. -/
theorem equals_array_object_iff {stored remote : Entries Value} :
    ((Value.object stored).keyOf p.storedKey).equals (.array [.object remote]) = true ↔
      ∃ field, p.correlationKey = [field] ∧
        (Value.field stored (storedField p.element field)).equals (.object remote) = true := by
  rw [Value.keyOf, Value.equals_array, storedKey, List.map_map, List.forall₂_map_left_iff]
  constructor
  · intro h
    generalize p.correlationKey = key at h
    cases h with
    | cons h hrest =>
      cases hrest
      exact ⟨_, rfl, h⟩
  · rintro ⟨field, hk, h⟩
    rw [hk]
    exact .cons h .nil

section Keyed

variable (hkey : p.correlationKey ≠ [])
include hkey

/-- A stored element is found for the remote elements that it meets, of those that can be merged. -/
theorem hash_eq_iff_meets {stored : Entries Value} {remote : Value}
    (hs : (Value.object stored).keysDistinct = true) (hr : remote.keysDistinct = true)
    {es : Entries Value} (hes : remoteEntries p.name remote = .ok es) :
    p.setHashes.stored (.object stored) = p.setHashes.remote remote ↔ p.Meets stored remote := by
  have hs' := Value.keysDistinct_keyOf hs p.storedKey
  have hr' := Value.keysDistinct_keyOf hr p.correlationKey
  rw [setHashes_keyed hkey]
  dsimp only
  rw [Value.correlationHash_eq, Value.correlationHash_eq]
  constructor
  · intro hhash
    rcases Value.equals_or_collision hs' hr' hhash with heq | hc
    · rcases form_of_remoteEntries hes with rfl | rfl | rfl
      · cases Value.equals_shape heq
      · exact .key (sameKey_iff.mpr heq)
      · obtain ⟨field, hk, h⟩ := equals_array_object_iff.mp heq
        exact .whole hk h
    · exact .collision hc
  · intro hmeets
    cases hmeets with
    | key h => exact Value.hash_of_equals hs' hr' (sameKey_iff.mp h)
    | collision h => exact h.hash_eq
    | whole hk h => exact Value.hash_of_equals hs' hr' (equals_array_object_iff.mpr ⟨_, hk, h⟩)

theorem counterpart_meets {locals : List (Entries Value)} {remote : Value}
    (hs : ∀ q ∈ locals, (Value.object q).keysDistinct = true) (hr : remote.keysDistinct = true)
    {es : Entries Value} (hes : remoteEntries p.name remote = .ok es) :
    FirstOf (fun q => p.Meets q remote) locals
      (counterpart p.setHashes (locals.map .object) remote) :=
  firstOf_counterpart fun q hq => hash_eq_iff_meets hkey (hs q hq) hr hes

end Keyed

/-- A merged object holds what is stored for a write-only child, if the child's state name is written
by no child after it. -/
theorem field_writeOnly {remote stored m : Value} (h : (p.mergeObject remote stored).result = .ok m)
    {c : Property} (hlast : p.lastNamed? c.stateName = some c) (hw : c.writeOnly = true) :
    Value.field m.entries c.stateName = Value.field stored.entries c.stateName := by
  obtain ⟨-, r, es, -, ha, rfl⟩ := ok_mergeObject.mp h
  rw [entries_wrapped]
  have hrel := ha.rel_ofList c.stateName
  rw [hlast] at hrel
  generalize hget : (Entries.ofList es).get? c.stateName = got at hrel
  cases hrel with
  | some hstores =>
    rw [Stores, coerce_writeOnly hw] at hstores
    rw [Value.field, hget, Except.ok.inj hstores]
    rfl

/-- A write-only value that an element of the merged set holds comes from the first stored element
that the remote element meets: one with an equal key, unless the keys collide or the remote element
is an array. -/
theorem mergeSet_meets (hkey : p.correlationKey ≠ []) {locals : List (Entries Value)}
    {remote v : Value} (hs : ∀ q ∈ locals, (Value.object q).keysDistinct = true)
    (hr : remote.keysDistinct = true)
    (h : (p.mergeSet remote (.array (locals.map .object))).result = .ok v) :
    ∃ ms vs, p.MergesElements remote (.array (locals.map .object)) ms ∧
      v = .array vs ∧ vs.Sublist ms ∧
      List.Forall₂ (fun r m => ∀ c ∈ p.children, c.writeOnly = true →
        p.lastNamed? c.stateName = some c → (Value.field m.entries c.stateName).isNull = false →
        ∃ before q after, locals = before ++ q :: after ∧ (∀ q' ∈ before, ¬p.Meets q' r) ∧
          p.Meets q r ∧ Value.field m.entries c.stateName = Value.field q c.stateName)
        remote.items ms := by
  obtain ⟨rs, vs, hrs, hvs, rfl⟩ := ok_mergeSet.mp h
  obtain rfl := remoteItems_ok hrs
  obtain ⟨ms, hms, rfl⟩ := ok_distinct.mp hvs
  refine ⟨ms, _, hms, rfl, sublist_firsts [] ms, ?_⟩
  refine Lists.forall₂_imp_of_mem hms fun r hr' m _ hm c hc hw hlast hnull => ?_
  rw [field_writeOnly hm hlast hw] at hnull ⊢
  obtain ⟨-, es, -, hes, -⟩ := ok_mergeObject.mp hm
  have hfirst := counterpart_meets hkey hs (Value.everywhere_items hr r hr') hes
  rw [Value.items] at hnull ⊢
  generalize counterpart p.setHashes (locals.map .object) r = l at hfirst hnull
  cases hfirst with
  | none => cases hnull
  | some place hbefore hmeets => exact ⟨_, _, _, place, hbefore, hmeets, rfl⟩

/-! ## Accounts that take the token of another -/

def sentLogins : Value := .array [login (.string "a"), login (.string "plumless")]

def storedLogins : List (Entries Value) :=
  [[("login", .string "buckeroo"), ("token", .string "B")],
    [("login", .string "a"), ("token", .string "A")]]

/-- The first account has the key of a stored one, the second has only the hash of such a key. -/
theorem sentLogins_meet :
    sampleAccounts.correlationKey ≠ [] ∧
      (∀ q ∈ storedLogins, (Value.object q).keysDistinct = true) ∧
      sentLogins.keysDistinct = true ∧
      (sampleAccounts.mergeSet sentLogins (.array (storedLogins.map .object))).result =
        .ok (.array [account (.string "a") (.string "A"),
          account (.string "plumless") (.string "B")]) ∧
      ∃ ms vs, sampleAccounts.MergesElements sentLogins (.array (storedLogins.map .object)) ms ∧
        Value.array [account (.string "a") (.string "A"),
          account (.string "plumless") (.string "B")] = .array vs ∧ vs.Sublist ms ∧
        List.Forall₂ (fun r m => ∀ c ∈ sampleAccounts.children, c.writeOnly = true →
          sampleAccounts.lastNamed? c.stateName = some c →
          (Value.field m.entries c.stateName).isNull = false →
          ∃ before q after, storedLogins = before ++ q :: after ∧
            (∀ q' ∈ before, ¬sampleAccounts.Meets q' r) ∧ sampleAccounts.Meets q r ∧
            Value.field m.entries c.stateName = Value.field q c.stateName) sentLogins.items ms := by
  have hkey : sampleAccounts.correlationKey ≠ [] := by decide
  have hstored : ∀ q ∈ storedLogins, (Value.object q).keysDistinct = true := by decide +kernel
  have hsent : sentLogins.keysDistinct = true := by decide +kernel
  have hmerged : (sampleAccounts.mergeSet sentLogins (.array (storedLogins.map .object))).result =
      .ok (.array [account (.string "a") (.string "A"),
        account (.string "plumless") (.string "B")]) := by decide +kernel
  exact ⟨hkey, hstored, hsent, hmerged, mergeSet_meets hkey hstored hsent hmerged⟩

/-- A token is handed to an account whose login has the checksum of another login, to one without a
login if another has the login `null`, and to one in an array if a stored login holds that account. -/
theorem tokens_cross_keys :
    ((sampleAccounts.mergeSet (.array [login (.string "plumless")])
        (.array [account (.string "buckeroo") (.string "T")])).result =
        .ok (.array [account (.string "plumless") (.string "T")]) ∧
      ¬sampleAccounts.SameKey [("login", .string "buckeroo"), ("token", .string "T")]
        [("login", .string "plumless")]) ∧
    ((sampleAccounts.mergeSet (.array [login .null])
        (.array [account (.string "null") (.string "T")])).result =
        .ok (.array [account .null (.string "T")]) ∧
      ¬sampleAccounts.SameKey [("login", .string "null"), ("token", .string "T")]
        [("login", .null)]) ∧
    (sampleAccounts.mergeSet (.array [.array [login (.string "a")]])
        (.array [account (login (.string "a")) (.string "T")])).result =
        .ok (.array [account (.string "a") (.string "T")]) ∧
      ¬sampleAccounts.SameKey [("login", login (.string "a")), ("token", .string "T")]
        [("login", .string "a")] := by
  decide +kernel

end Property

end Reconciliation
