import Reconciliation.Proofs.Merge.Memory
import Reconciliation.Proofs.Merge.Preservation

/-! # Merging the same remote value again

What a merge stores is what the next merge of the same remote value finds. It is stored again as it
is, unless a set loses track of an element: a remote element has to meet the element that it gave.
-/
namespace Reconciliation

open Merge

namespace Merge

theorem remoteEntries_ok {name : String} {remote : Value} {es : Entries Value}
    (h : remoteEntries name remote = .ok es) : es = remote.entries := by
  unfold remoteEntries at h
  unfold Value.entries
  split at h
  · rename_i hnull
    rw [hnull]
    exact (Except.ok.inj h).symm
  · rename_i fs hobject
    rw [hobject]
    exact (Except.ok.inj h).symm
  · cases h

theorem remoteItems_ok {name : String} {remote : Value} {xs : List Value}
    (h : remoteItems name remote = .ok xs) : xs = remote.items := by
  unfold remoteItems at h
  split at h
  · exact (Except.ok.inj h).symm
  · exact (Except.ok.inj h).symm
  · cases h

def Repeats (merge : Value → Value → Merged Value) (remote stored : Value) : Prop :=
  ∀ v, (merge remote stored).result = .ok v → (merge remote v).result = .ok v

/-- Lists keep their length, so their elements meet the same places again. -/
theorem paired_again {merge : Value → Value → Merged Value} {remote stored vs : List Value}
    (hr : ∀ pair ∈ paired remote stored, Repeats merge pair.1 pair.2)
    (h : List.Forall₂ (fun pair v => (merge pair.1 pair.2).result = .ok v)
      (paired remote stored) vs) :
    List.Forall₂ (fun pair v => (merge pair.1 pair.2).result = .ok v) (paired remote vs) vs := by
  induction remote generalizing stored vs with
  | nil =>
    rw [paired] at h hr
    rw [paired, List.forall₂_map_left_iff, List.forall₂_same]
    intro v hv
    obtain ⟨pair, hpair, hm⟩ := Lists.exists_left h hv
    obtain ⟨s, -, rfl⟩ := List.mem_map.mp hpair
    exact hr _ hpair v hm
  | cons r rs ih =>
    cases stored with
    | nil =>
      rw [paired] at h hr
      obtain ⟨v, vs, hv, hvs, rfl⟩ := List.forall₂_cons_left_iff.mp h
      have hrest := ih (fun pair hp => hr pair (List.mem_cons_of_mem _ hp)) hvs
      exact .cons (hr (r, .null) (by simp) v hv) hrest
    | cons s ss =>
      rw [paired] at h hr
      obtain ⟨v, vs, hv, hvs, rfl⟩ := List.forall₂_cons_left_iff.mp h
      have hrest := ih (fun pair hp => hr pair (List.mem_cons_of_mem _ hp)) hvs
      exact .cons (hr (r, s) (by simp) v hv) hrest

section Distinct

variable {name : String} {merge : Value → Value → Merged Value} {f g : Value → Value}
  {seen : List UInt32} {remote vs : List Value}

theorem distinct_imp
    (hfg : ∀ x ∈ remote, ∀ v, (merge x (f x)).result = .ok v → (merge x (g x)).result = .ok v)
    (h : (distinct name merge f seen remote).result = .ok vs) :
    (distinct name merge g seen remote).result = .ok vs := by
  obtain ⟨ms, hms, rfl⟩ := ok_distinct.mp h
  exact ok_distinct.mpr ⟨ms, Lists.forall₂_imp_of_mem hms fun x hx v _ => hfg x hx v, rfl⟩

theorem hash_kept (h : (distinct name merge f seen remote).result = .ok vs) {x : Value}
    (hx : x ∈ remote) :
    ∃ v, (merge x (f x)).result = .ok v ∧ (v.hash ∈ seen ∨ ∃ w ∈ vs, w.hash = v.hash) := by
  obtain ⟨ms, hms, rfl⟩ := ok_distinct.mp h
  obtain ⟨v, hv, hm⟩ := Lists.exists_right hms hx
  refine ⟨v, hm, ?_⟩
  by_cases hseen : v.hash ∈ seen
  · exact Or.inl hseen
  · exact Or.inr (exists_first hv hseen)

end Distinct

end Merge

namespace Property

/-! ## Where a merge goes -/

/-- The remote elements of a property, each with the stored element it is merged with. -/
def met (p : Property) (remote stored : Value) : List (Value × Value) :=
  match p.kind with
  | .object => [(remote, stored)]
  | .list => paired remote.items stored.items
  | .set => remote.items.map fun r => (r, counterpart p.setHashes stored.items r)
  | _ => []

/-- A condition on all that a merge reaches without passing through a write-only property. -/
inductive Along (P : Property → Value → Value → Prop) : Property → Value → Value → Prop
  | writeOnly {p : Property} {remote stored : Value} (h : p.writeOnly = true) :
    Along P p remote stored
  | mk {p : Property} {remote stored : Value} (own : P p remote stored)
    (below : ∀ pair ∈ p.met remote stored, ∀ c ∈ p.children,
      Along P c (Value.field pair.1.entries c.name) (Value.field pair.2.entries c.stateName)) :
    Along P p remote stored

def ElementAlong (P : Property → Value → Value → Prop) (p : Property) (remote stored : Value) :
    Prop :=
  ∀ c ∈ p.children,
    Along P c (Value.field remote.entries c.name) (Value.field stored.entries c.stateName)

theorem Along.cases {P : Property → Value → Value → Prop} {p : Property} {remote stored : Value}
    (h : Along P p remote stored) (hw : p.writeOnly = false) :
    P p remote stored ∧ ∀ pair ∈ p.met remote stored, p.ElementAlong P pair.1 pair.2 := by
  cases h with
  | writeOnly h =>
    rw [hw] at h
    cases h
  | mk own below => exact ⟨own, below⟩

theorem along_primitive {P : Property → Value → Value → Prop} {p : Property}
    {remote stored : Value} (hk : p.kind.isPrimitive = true) (h : P p remote stored) :
    Along P p remote stored := by
  have hnone : p.met remote stored = [] := by
    rw [met]
    cases hkind : p.kind <;> rw [hkind] at hk <;> first | rfl | cases hk
  refine .mk h fun pair hp => ?_
  rw [hnone] at hp
  cases hp

/-! ## Elements that read nothing stored -/

def IgnoresStored (merge : Value → Value → Merged Value) : Prop :=
  ∀ remote stored stored' v, (merge remote stored).result = .ok v →
    (merge remote stored').result = .ok v

theorem mergeObject_ignoresStored {p : Property} (h : ∀ c ∈ p.children, c.Stateless) :
    IgnoresStored p.mergeObject := by
  intro remote stored stored' v hv
  have halike : MergedWithAlike p.mergeObject stored stored' := by
    apply mergeObject_congr_stored
    intro c hc
    exact coerce_eq_of_storedAlike ((h c hc).storedAlike _ _)
  rw [← halike remote]
  exact hv

/-! ## Sets -/

def MergedAlike (p : Property) (x y : Value) : Prop :=
  ∀ stored v, (p.mergeObject x stored).result = .ok v → (p.mergeObject y stored).result = .ok v

structure FindsAgain (p : Property) (remote stored : List Value) : Prop where
  /-- What is stored is found by the hash of its remote element. If not, that met nothing, and no
  remote element finds it. -/
  own : ∀ x ∈ remote, ∀ v, (p.mergeObject x (counterpart p.setHashes stored x)).result = .ok v →
    p.setHashes.stored v = p.setHashes.remote x ∨
      (counterpart p.setHashes stored x = .null ∧
        ∀ y ∈ remote, p.setHashes.stored v ≠ p.setHashes.remote y)
  /-- Remote elements of one hash are merged alike. -/
  alike : ∀ x ∈ remote, ∀ y ∈ remote, p.setHashes.remote x = p.setHashes.remote y →
    p.MergedAlike x y
  /-- What is skipped as a duplicate is one. -/
  duplicate : ∀ x ∈ remote, ∀ y ∈ remote, ∀ v w,
    (p.mergeObject x (counterpart p.setHashes stored x)).result = .ok v →
    (p.mergeObject y (counterpart p.setHashes stored y)).result = .ok w → v.hash = w.hash → v = w

/-- A set whose elements are made of remote values alone, or found again. -/
def SetSettled (p : Property) (remote stored : Value) : Prop :=
  p.kind = .set → p.element.isSome = true →
    (∀ c ∈ p.children, c.Stateless) ∨ p.FindsAgain remote.items stored.items

theorem counterpart_congr {h : Hashes} {stored : List Value} {x y : Value}
    (hxy : h.remote x = h.remote y) : counterpart h stored x = counterpart h stored y := by
  rw [counterpart, counterpart, hxy]

/-- With what is stored, a remote element meets the element that it gave, or nothing again. -/
theorem FindsAgain.counterpart_eq {p : Property} {remote stored vs : List Value}
    (hf : p.FindsAgain remote stored)
    (h : (distinct p.name p.mergeObject (counterpart p.setHashes stored) [] remote).result =
      .ok vs) {x v : Value} (hx : x ∈ remote)
    (hv : (p.mergeObject x (counterpart p.setHashes stored x)).result = .ok v) :
    counterpart p.setHashes vs x = v ∨
      (counterpart p.setHashes stored x = .null ∧ counterpart p.setHashes vs x = .null) := by
  -- Whatever is found by the hash of `x` is what `x` gave.
  have hfound : ∀ m ∈ vs, p.setHashes.stored m = p.setHashes.remote x → m = v := by
    intro m hm hhash
    obtain ⟨y, hy, hmy⟩ := mem_of_distinct h hm
    rcases hf.own y hy m hmy with heq | ⟨-, hnone⟩
    · have hyx : p.setHashes.remote y = p.setHashes.remote x := heq.symm.trans hhash
      have hmx := hf.alike y hy x hx hyx _ _ hmy
      rw [counterpart_congr hyx, hv] at hmx
      exact (Except.ok.inj hmx).symm
    · exact absurd hhash (hnone x hx)
  have hcases : counterpart p.setHashes vs x = .null ∧
      (∀ m ∈ vs, p.setHashes.stored m ≠ p.setHashes.remote x) ∨
      counterpart p.setHashes vs x = v := by
    rw [counterpart]
    cases hfind : vs.find? fun s => p.setHashes.stored s == p.setHashes.remote x with
    | none =>
      refine Or.inl ⟨rfl, fun m hm heq => ?_⟩
      exact List.find?_eq_none.mp hfind m hm (beq_iff_eq.mpr heq)
    | some m =>
      refine Or.inr (hfound m (List.mem_of_find?_eq_some hfind) ?_)
      simpa using List.find?_some hfind
  rcases hcases with ⟨hnull, hnot⟩ | heq
  · rcases hf.own x hx v hv with hown | ⟨hstored, -⟩
    · obtain ⟨u, hu, hkept⟩ := hash_kept h hx
      obtain rfl := Except.ok.inj (hv.symm.trans hu)
      rcases hkept with hseen | ⟨w, hw, hwv⟩
      · cases hseen
      · obtain ⟨y, hy, hwy⟩ := mem_of_distinct h hw
        obtain rfl := hf.duplicate x hx y hy v w hv hwy hwv.symm
        exact absurd hown (hnot v hw)
    · exact Or.inr ⟨hstored, hnull⟩
  · exact Or.inl heq

theorem mergeSet_again {p : Property} {remote stored : Value}
    (hs : (∀ c ∈ p.children, c.Stateless) ∨ p.FindsAgain remote.items stored.items)
    (ih : ∀ x ∈ remote.items, Repeats p.mergeObject x (counterpart p.setHashes stored.items x)) :
    Repeats p.mergeSet remote stored := by
  intro v h
  obtain ⟨rs, vs, hrs, hvs, rfl⟩ := ok_mergeSet.mp h
  refine ok_mergeSet.mpr ⟨rs, vs, hrs, distinct_imp (fun x hx w hw => ?_) hvs, rfl⟩
  obtain rfl := remoteItems_ok hrs
  rcases hs with hs | hs
  · exact mergeObject_ignoresStored hs x _ _ w hw
  · rcases hs.counterpart_eq hvs hx hw with heq | ⟨hnull, hnull'⟩
    · rw [Value.items, heq]
      exact ih x hx w hw
    · rw [Value.items, hnull', ← hnull]
      exact hw

/-! ## The merge again -/

theorem mergeObject_again {p : Property} (hn : p.NamesDistinct) {remote stored : Value}
    (ih : ∀ c ∈ p.children, Repeats (coerce c) (Value.field remote.entries c.name)
      (Value.field stored.entries c.stateName)) : Repeats p.mergeObject remote stored := by
  intro v h
  obtain ⟨he, rs, es, hr, ha, rfl⟩ := ok_mergeObject.mp h
  obtain rfl := remoteEntries_ok hr
  refine ok_mergeObject.mpr ⟨he, _, es, hr, ⟨ha.keys, ?_⟩, rfl⟩
  rw [entries_wrapped, ha.ofList_eq hn]
  have hfield : ∀ c ∈ p.children, (coerce c (Value.field remote.entries c.name)
        (Value.field stored.entries c.stateName)).result = .ok (Value.field es c.stateName) ∧
      (coerce c (Value.field remote.entries c.name) (Value.field es c.stateName)).result =
        .ok (Value.field es c.stateName) := by
    intro c hc
    have hvalue := ha.field_eq hn hc
    exact ⟨hvalue, ih c hc _ hvalue⟩
  refine ((List.forall₂_and_left _ _).mpr ⟨hfield, ha.values⟩).imp fun c e hce => ?_
  obtain ⟨⟨hfirst, hagain⟩, hvalue⟩ := hce
  rw [hagain, ← hfirst, hvalue]

theorem mergeList_again {p : Property} {remote stored : Value}
    (ih : ∀ pair ∈ paired remote.items stored.items, Repeats p.mergeObject pair.1 pair.2) :
    Repeats p.mergeList remote stored := by
  intro v h
  obtain ⟨rs, vs, hrs, hvs, rfl⟩ := ok_mergeList.mp h
  obtain rfl := remoteItems_ok hrs
  exact ok_mergeList.mpr ⟨_, vs, hrs, paired_again ih hvs, rfl⟩

/-- A second merge leaves alone what the first one stores, if the sets on the way find their
elements again. -/
theorem coerce_again {p : Property} (hn : p.Throughout NamesDistinct) {remote stored : Value}
    (hs : p.Along SetSettled remote stored) : Repeats (coerce p) remote stored := by
  induction p generalizing remote stored with
  | step p ih =>
    intro v h
    have hobject (hw : p.writeOnly = false) : ∀ pair ∈ p.met remote stored,
        Repeats p.mergeObject pair.1 pair.2 :=
      fun pair hp => mergeObject_again hn.own fun c hc =>
        ih c hc (hn.children hc) ((hs.cases hw).2 pair hp c hc)
    rw [ok_coerce] at h ⊢
    cases h with
    | writeOnly hw => exact .writeOnly hw
    | object hw hk h =>
      have hobject := hobject hw
      rw [met, hk] at hobject
      exact .object hw hk (hobject (remote, stored) (by simp) v h)
    | list hw hk he h =>
      have hobject := hobject hw
      rw [met, hk] at hobject
      exact .list hw hk he (mergeList_again hobject v h)
    | set hw hk he h =>
      have hobject := hobject hw
      rw [met, hk] at hobject
      refine .set hw hk he (mergeSet_again ((hs.cases hw).1 hk he) (fun x hx => ?_) v h)
      exact hobject (x, _) (List.mem_map_of_mem hx)
    | primitives hw hk he hi h => exact .primitives hw hk he hi h
    | scalar hw hk h => exact .scalar hw hk h

theorem mergeObject_again_of_settled {p : Property} (hn : p.Throughout NamesDistinct)
    {remote stored : Value} (hs : p.ElementAlong SetSettled remote stored) :
    Repeats p.mergeObject remote stored :=
  mergeObject_again hn.own fun c hc => coerce_again (hn.children hc) (hs c hc)

/-! ## Sets whose elements read nothing stored -/

def StatelessSet (p : Property) : Prop :=
  p.kind = .set → p.element.isSome = true → ∀ c ∈ p.children, c.Stateless

instance : DecidablePred StatelessSet := fun p =>
  inferInstanceAs (Decidable (p.kind = .set → p.element.isSome = true →
    ∀ c ∈ p.children, c.Stateless))

/-- What every property reached satisfies, whatever it meets, holds all along. -/
theorem along_of_throughout {P : Property → Value → Value → Prop} {Q : Property → Prop}
    (hQ : ∀ q, Q q → ∀ remote stored, P q remote stored) {p : Property} (h : p.Throughout Q)
    (remote stored : Value) : Along P p remote stored := by
  induction p generalizing remote stored with
  | step p ih =>
    apply Along.mk (hQ p h.own remote stored)
    intro pair _ c hc
    exact ih c hc (h.children hc) _ _

/-- For a fixed remote value merging is idempotent: whatever was stored at first, the merge leaves
alone what it stored. -/
theorem coerce_idempotent {p : Property} (hn : p.Throughout NamesDistinct)
    (hs : p.Throughout StatelessSet) {remote stored v : Value}
    (h : (coerce p remote stored).result = .ok v) : (coerce p remote v).result = .ok v := by
  have hsettled : p.Along SetSettled remote stored := by
    apply along_of_throughout _ hs
    intro q hq _ _ hk he
    exact .inl (hq hk he)
  exact coerce_again hn hsettled v h

/-- A wrapped plant with a pin that is kept, machines in order, and groups. -/
def samplePlant : Property :=
  { name := "plant", kind := .object
    element := some ⟨[{ name := "pinCode", kind := .string, writeOnly := true },
      { name := "machines", kind := .list
        element := some ⟨[{ name := "loadFactor", kind := .integer },
          { name := "serviceKey", kind := .string, writeOnly := true }], true⟩ },
      sampleGroups], true⟩ }

def sentPlant : Value :=
  .object [("machines", .array [.object [("loadFactor", .float (Binary64.nearest (7 / 2)))]]),
    ("groups", sentGroups), ("pinCode", .string "sent")]

def mergedPlant : Value :=
  .array [.object [("pin_code", .int 7),
    ("machines", .array [.object [("load_factor", .int 3), ("service_key", .null)],
      .object [("load_factor", .null), ("service_key", .bool true)]]),
    ("groups", mergedGroups)]]

/-- What is stored at first does not conform: the pin and a key are no texts, and a machine is one. -/
theorem samplePlant_again : (coerce samplePlant sentPlant (.object [("pin_code", .int 7),
      ("machines", .array [.string "odd", .array [.object [("service_key", .bool true)]]])])).result =
        .ok mergedPlant ∧
    (coerce samplePlant sentPlant mergedPlant).result = .ok mergedPlant := by
  have hnames : samplePlant.Throughout NamesDistinct := by decide +kernel
  have hsets : samplePlant.Throughout StatelessSet := by decide +kernel
  have hmerge : (coerce samplePlant sentPlant (.object [("pin_code", .int 7),
      ("machines", .array [.string "odd", .array [.object [("service_key", .bool true)]]])])).result =
        .ok mergedPlant := by decide +kernel
  exact ⟨hmerge, coerce_idempotent hnames hsets hmerge⟩

end Property

end Reconciliation
