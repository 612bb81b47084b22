import Reconciliation.Proofs.Schema.Decision
import Reconciliation.Proofs.State.Reconcile

/-! # Where the write-only values of a list go

A list whose order carries no meaning is first put into the stored order and then merged by
position. An element moves forward by the stored elements before it that are gone, and it takes the
write-only values from the place it moves to.
-/
namespace Reconciliation

open Merge

structure OneToOne (same : Value → Value → Bool) (stored remote : List Value) : Prop where
  onward : ∀ {i j k : Nat} {s r r' : Value}, stored[i]? = some s → remote[j]? = some r →
    remote[k]? = some r' → same s r = true → same s r' = true → j = k
  back : ∀ {i j k : Nat} {s s' r : Value}, stored[i]? = some s → stored[j]? = some s' →
    remote[k]? = some r → same s r = true → same s' r = true → i = j

/-- No item of either list has two counterparts, counted by their places. -/
theorem oneToOne_iff {same : Value → Value → Bool} {stored remote : List Value} :
    OneToOne same stored remote ↔ (∀ s ∈ stored, remote.countP (same s) ≤ 1) ∧
      ∀ r ∈ remote, stored.countP (same · r) ≤ 1 := by
  simp only [Lists.countP_le_one_iff]
  constructor
  · intro h
    constructor
    · intro s hs j k r r' hr hr'
      obtain ⟨i, hi⟩ := List.getElem?_of_mem hs
      exact h.onward hi hr hr'
    · intro r hr i j s s' hs hs'
      obtain ⟨k, hk⟩ := List.getElem?_of_mem hr
      exact h.back hs hs' hk
  · rintro ⟨honward, hback⟩
    exact ⟨fun hs hr hr' => honward _ (List.mem_of_getElem? hs) hr hr',
      fun hs hs' hr => hback _ (List.mem_of_getElem? hr) hs hs'⟩

instance (same : Value → Value → Bool) (stored remote : List Value) :
    Decidable (OneToOne same stored remote) := decidable_of_iff _ oneToOne_iff.symm

/-- The place of the counterpart of a stored item: the number of items before it that have one. -/
def newPlace (same : Value → Value → Bool) (stored remote : List Value) (i : Nat) : Nat :=
  (stored.take i).countP fun s => remote.any (same s)

theorem newPlace_le (same : Value → Value → Bool) (stored remote : List Value) (i : Nat) :
    newPlace same stored remote i ≤ i :=
  Nat.le_trans List.countP_le_length (List.length_take_le i stored)

/-- Items before which none is gone keep their place. -/
theorem newPlace_eq {same : Value → Value → Bool} {stored remote : List Value} {i : Nat}
    (hi : i ≤ stored.length) (h : ∀ s ∈ stored.take i, remote.any (same s) = true) :
    newPlace same stored remote i = i := by
  rw [newPlace, List.countP_eq_length.mpr h, List.length_take, Nat.min_eq_left hi]

theorem isSome_find? (same : Value → Bool) (remote : List Value) :
    (remote.find? same).isSome = remote.any same := by
  rw [Bool.eq_iff_iff, List.find?_isSome, List.any_eq_true]

theorem find?_eq {same : Value → Value → Bool} {stored remote : List Value}
    (h : OneToOne same stored remote) {i j : Nat} {s r : Value} (hs : stored[i]? = some s)
    (hr : remote[j]? = some r) (hsr : same s r = true) : remote.find? (same s) = some r := by
  cases hf : remote.find? (same s) with
  | none => exact absurd hsr (List.find?_eq_none.mp hf r (List.mem_of_getElem? hr))
  | some r' =>
    obtain ⟨k, hk⟩ := List.getElem?_of_mem (List.mem_of_find?_eq_some hf)
    obtain rfl := h.onward hs hr hk hsr (List.find?_some hf)
    exact (hr.symm.trans hk).symm

/-- The counterpart of a stored item stands at its new place. -/
theorem arranged_newPlace {same : Value → Value → Bool} {stored remote : List Value}
    (h : OneToOne same stored remote) {i j : Nat} {s r : Value} (hs : stored[i]? = some s)
    (hr : remote[j]? = some r) (hsr : same s r = true) :
    (arranged same stored remote)[newPlace same stored remote i]? = some r := by
  have hfirst := Lists.getElem?_filterMap (f := fun s => remote.find? (same s)) hs
    (find?_eq h hs hr hsr)
  simp only [isSome_find?] at hfirst
  rw [newPlace, arranged, List.getElem?_append_left (List.getElem?_eq_some_iff.mp hfirst).1]
  exact hfirst

namespace Property

def SameSecrets (p : Property) (v w : Value) : Prop :=
  ∀ c ∈ p.children, c.writeOnly = true →
    Value.field v.entries c.stateName = Value.field w.entries c.stateName

/-- A merged element holds the write-only values of the stored element it was merged with. -/
theorem sameSecrets_mergeObject {p : Property} (hn : p.NamesDistinct) {remote stored v : Value}
    (h : (p.mergeObject remote stored).result = .ok v) : p.SameSecrets v stored := by
  intro c hc hw
  obtain ⟨-, r, es, -, ha, rfl⟩ := ok_mergeObject.mp h
  have hfield := ha.field_eq hn hc
  rw [coerce_writeOnly hw] at hfield
  rw [entries_wrapped, ha.ofList_eq hn]
  exact (Except.ok.inj hfield).symm

/-- A list that keeps the stored order is merged with the remote items in that order. -/
theorem ok_update_list {p : Property} (hk : p.kind = .list) (ho : p.ignoreOrder = true)
    (he : p.element.isSome = true) (hw : p.writeOnly = false) {stored remote : List Value}
    {u : Option Value} (h : (p.update .stored (.array remote) (.array stored)).result = .ok u) :
    ∃ vs, u = some (.array vs) ∧
      List.Forall₂ (fun pair v => (p.mergeObject pair.1 pair.2).result = .ok v)
        (paired (arranged p.sameItem stored remote) stored) vs := by
  have hignore : p.shouldIgnoreOrder = true := by simp [shouldIgnoreOrder, hk, ho]
  rw [update_array hignore (Or.inr ⟨stored, rfl⟩)] at h
  obtain ⟨m, hm, hu⟩ := Traced.ok_bind.mp h
  rw [coerce_list hk hw, if_pos he] at hm
  obtain ⟨rs, vs, hrs, hvs, rfl⟩ := ok_mergeList.mp hm
  obtain rfl := Except.ok.inj hrs
  exact ⟨vs, (Except.ok.inj hu).symm, hvs⟩

end Property

open Property (SameSecrets)

/-- The remote item that is the same as a stored one is merged at its new place, with the element
stored there, and takes its write-only values from that element. They are its own if and only if
the two elements hold the same, as they do where no element before it is gone. -/
theorem Schema.reconcile_secrets {s : Schema} (hs : s.Distinct) {name : String} {p : Property}
    (hp : s.find? name = some p) (hr : p.stateName ∉ reservedNames) (hk : p.kind = .list)
    (ho : p.ignoreOrder = true) (he : p.element.isSome = true) (hw : p.writeOnly = false)
    {es : Entries Value} (hes : es.keys.Nodup) {values values' : Entries Value}
    {stored remote : List Value} (hstored : Value.field values p.stateName = .array stored)
    (hremote : (name, .array remote) ∈ es) (hone : OneToOne p.sameItem stored remote)
    (h : (s.reconcile .stored (.object es) values).result = .ok values') :
    ∃ merged, Value.field values' p.stateName = .array merged ∧
      ∀ (i j : Nat) (q r : Value), stored[i]? = some q → remote[j]? = some r → p.sameItem q r = true →
        ∃ l v, stored[newPlace p.sameItem stored remote i]? = some l ∧
          merged[newPlace p.sameItem stored remote i]? = some v ∧
          (p.mergeObject r l).result = .ok v ∧ p.SameSecrets v l ∧
          (p.SameSecrets v q ↔ p.SameSecrets l q) ∧
          ((∀ s ∈ stored.take i, remote.any (p.sameItem s) = true) → p.SameSecrets v q) := by
  obtain ⟨u, hu, hget⟩ := mergeEntries_get? hs.top hes h hremote hp hr
  rw [hstored] at hu
  obtain ⟨merged, rfl, hmerged⟩ := Property.ok_update_list hk ho he hw hu
  refine ⟨merged, by rw [Value.field, hget]; rfl, fun i j q r hq hj hqr => ?_⟩
  have hlt := (List.getElem?_eq_some_iff.mp hq).1
  have hle := newPlace_le p.sameItem stored remote i
  obtain ⟨l, hl⟩ : ∃ l, stored[newPlace p.sameItem stored remote i]? = some l :=
    ⟨_, List.getElem?_eq_getElem (by omega)⟩
  have hplace := arranged_newPlace hone hq hj hqr
  have hlt' : newPlace p.sameItem stored remote i <
      max (arranged p.sameItem stored remote).length stored.length := by omega
  have hpair := getElem?_paired hlt'
  rw [hplace, hl] at hpair
  obtain ⟨v, hv, hm⟩ := Lists.getElem?_left hmerged hpair
  have hn := (hs.below p (find?_spec hp).1).own
  have hsecrets : p.SameSecrets v l := Property.sameSecrets_mergeObject hn hm
  refine ⟨l, v, hl, hv, hm, hsecrets, ?_, fun hall => ?_⟩
  · exact forall₂_congr fun c hc => forall_congr' fun hcw => by rw [hsecrets c hc hcw]
  · rw [newPlace_eq (Nat.le_of_lt hlt) hall, hq] at hl
    rwa [← Option.some.inj hl] at hsecrets

/-! ## A member leaves a list -/

def sampleMembers : Property :=
  { name := "members", kind := .list, ignoreOrder := true
    element := some ⟨[{ name := "name", kind := .string },
      { name := "token", kind := .string, writeOnly := true }], false⟩ }

def sampleStored : List Value :=
  [.object [("name", .string "a"), ("token", .string "A")],
   .object [("name", .string "b"), ("token", .string "B")]]

def sampleRemote : List Value := [.object [("name", .string "b")]]

theorem sampleMembers_distinct : Schema.Distinct ⟨[sampleMembers], false⟩ := by decide

theorem sampleMembers_oneToOne : OneToOne sampleMembers.sameItem sampleStored sampleRemote := by
  decide +kernel

/-- What the schema of the members makes of a read in which one of them is gone. -/
def sampleRead : Merged (Entries Value) :=
  Schema.reconcile ⟨[sampleMembers], false⟩ .stored
    (.object [("members", .array sampleRemote)]) [("members", .array sampleStored)]

def firstToken (values : Entries Value) : Bool :=
  match Value.field values "members" with
  | .array (v :: _) => (Value.field v.entries "token").equals (.string "A")
  | _ => false

/-- The member that stays is merged with the one that leaves, so it takes the other's token. -/
theorem secrets_sampleMembers : ∃ values' merged l v, sampleRead.result = .ok values' ∧
    Value.field values' "members" = .array merged ∧
    sampleStored[0]? = some l ∧ merged[0]? = some v ∧ sampleMembers.SameSecrets v l := by
  obtain ⟨values', h, -⟩ := Traced.ok_of_passes
    (show Traced.passes firstToken sampleRead.result = true by decide +kernel)
  obtain ⟨merged, hfield, hmerged⟩ := Schema.reconcile_secrets sampleMembers_distinct
    (show _ = some sampleMembers by rfl) (by decide +kernel) rfl rfl rfl rfl
    (show List.Nodup _ by decide) rfl (List.mem_singleton_self _) sampleMembers_oneToOne h
  obtain ⟨l, v, hl, hv, -, hsame, -⟩ := hmerged 1 0 _ _ rfl rfl (by decide +kernel)
  exact ⟨values', merged, l, v, h, hfield, hl, hv, hsame⟩

/-- Stored secrets do not always stay with their element. -/
theorem secrets_move : ¬ ∀ (s : Schema) (name : String) (p : Property)
    (es values values' : Entries Value) (stored remote merged : List Value), s.Distinct →
    s.find? name = some p → p.stateName ∉ Schema.reservedNames → p.kind = .list →
    p.ignoreOrder = true → p.element.isSome = true → p.writeOnly = false → es.keys.Nodup →
    Value.field values p.stateName = .array stored → (name, .array remote) ∈ es →
    OneToOne p.sameItem stored remote →
    (s.reconcile .stored (.object es) values).result = .ok values' →
    Value.field values' p.stateName = .array merged →
    ∀ (i k : Nat) (q r v : Value), stored[i]? = some q → p.sameItem q r = true →
      (arranged p.sameItem stored remote)[k]? = some r → merged[k]? = some v →
      p.SameSecrets v q := by
  intro hall
  obtain ⟨values', h, hfirst⟩ := Traced.ok_of_passes
    (show Traced.passes firstToken sampleRead.result = true by decide +kernel)
  unfold firstToken at hfirst
  split at hfirst
  · rename_i v vs hfield
    have hsame := hall _ _ _ _ _ values' _ _ (v :: vs) sampleMembers_distinct
      (show _ = some sampleMembers by rfl) (by decide +kernel) rfl rfl rfl rfl
      (show List.Nodup _ by decide) rfl (List.mem_singleton_self _) sampleMembers_oneToOne h
      hfield 1 0 _ _ v rfl (by decide +kernel) rfl rfl
    have htoken := hsame { name := "token", kind := .string, writeOnly := true }
      (by simp [Property.children, sampleMembers]) rfl
    have hname : Property.stateName { name := "token", kind := .string, writeOnly := true } =
        "token" := by decide +kernel
    rw [hname] at htoken
    rw [htoken] at hfirst
    exact absurd hfirst (by decide +kernel)
  · cases hfirst

end Reconciliation
