import Reconciliation.Proofs.Merge.Coercion
import Reconciliation.Proofs.Schema.Decision

/-! # What a merge keeps at a path

A path leads down a tree by the keys of objects and the places of arrays. Objects are entered by
the state names of children and lists by place, so a merge carries every stored piece to the path it
had, whatever the remote value holds there.
-/
namespace Reconciliation

open Merge

inductive PathStep
  | key (name : String)
  | place (i : Nat)
deriving DecidableEq

namespace Value

/-- What a step leads to. An object is seen through a one-element array. -/
def below? (v : Value) : PathStep → Option Value
  | .key name => Entries.get? v.entries name
  | .place i => v.items[i]?

def at? (v : Value) : List PathStep → Option Value
  | [] => some v
  | step :: path => (v.below? step).bind fun w => w.at? path

@[simp] theorem at?_nil (v : Value) : v.at? [] = some v := rfl

theorem at?_cons {v w : Value} {step : PathStep} {path : List PathStep} :
    v.at? (step :: path) = some w ↔ ∃ u, v.below? step = some u ∧ u.at? path = some w :=
  Option.bind_eq_some_iff

theorem field_of_below? {v u : Value} {name : String} (h : v.below? (.key name) = some u) :
    field v.entries name = u := by
  have hget : Entries.get? v.entries name = some u := h
  rw [field, hget]
  rfl

end Value

namespace Property

/-- A path from a property to a write-only one: through objects by the state names of their
children, and through the elements of lists by place. In a schema without sets of objects there is
no other. -/
inductive WriteOnlyAt : Property → List PathStep → Prop
  | here {p : Property} (hw : p.writeOnly = true) : WriteOnlyAt p []
  | child {p c : Property} {path : List PathStep} (hk : p.kind = .object) (hc : c ∈ p.children)
    (h : WriteOnlyAt c path) : WriteOnlyAt p (.key c.stateName :: path)
  | element {p c : Property} {path : List PathStep} (hk : p.kind = .list) (i : Nat)
    (hc : c ∈ p.children) (h : WriteOnlyAt c path) :
    WriteOnlyAt p (.place i :: .key c.stateName :: path)

def KeepsAt (p : Property) (path : List PathStep) : Prop :=
  ∀ remote stored v w, (coerce p remote stored).result = .ok v → stored.at? path = some w →
    v.at? path = some w

theorem at?_mergeObject {p c : Property} (hn : p.NamesDistinct) (hc : c ∈ p.children)
    {path : List PathStep} (hkeeps : c.KeepsAt path) {remote stored v w : Value}
    (h : (p.mergeObject remote stored).result = .ok v)
    (hw : stored.at? (.key c.stateName :: path) = some w) :
    v.at? (.key c.stateName :: path) = some w := by
  obtain ⟨-, r, es, -, ha, rfl⟩ := ok_mergeObject.mp h
  obtain ⟨u, hu, huw⟩ := Value.at?_cons.mp hw
  obtain ⟨m, hm, hcoerce⟩ := ha.coerce_of_mem hc
  rw [Value.field_of_below? hu] at hcoerce
  have hget : Entries.get? es c.stateName = some m := Entries.get?_of_mem (ha.keys ▸ hn) hm
  apply Value.at?_cons.mpr
  refine ⟨m, ?_, hkeeps _ _ _ _ hcoerce huw⟩
  rw [Value.below?, entries_wrapped, ha.ofList_eq hn]
  exact hget

/-- A merged list keeps what is kept of the element at each place, also beyond the remote ones. -/
theorem at?_mergeList {p : Property} {i : Nat} {path : List PathStep}
    (hkeeps : ∀ remote stored v w, (p.mergeObject remote stored).result = .ok v →
      stored.at? path = some w → v.at? path = some w) {remote stored v w : Value}
    (h : (p.mergeList remote stored).result = .ok v)
    (hw : stored.at? (.place i :: path) = some w) : v.at? (.place i :: path) = some w := by
  obtain ⟨rs, vs, -, hvs, rfl⟩ := ok_mergeList.mp h
  obtain ⟨s, hs, hsw⟩ := Value.at?_cons.mp hw
  have hs : stored.items[i]? = some s := hs
  have hlt := (List.getElem?_eq_some_iff.mp hs).1
  have hpair : (paired rs stored.items)[i]? = some ((rs[i]?).getD .null, s) := by
    rw [getElem?_paired (by omega), hs]
    rfl
  obtain ⟨x, hx, hm⟩ := Lists.getElem?_left hvs hpair
  exact Value.at?_cons.mpr ⟨x, hx, hkeeps _ _ _ _ hm hsw⟩

/-- A merge keeps every stored write-only value at its own path, whatever is sent: nothing, null,
shorter lists or other values. Where the path passes a write-only property, all below it is kept. -/
theorem at?_coerce {p : Property} (hn : p.Throughout NamesDistinct) {path : List PathStep}
    (hp : p.WriteOnlyAt path) {remote stored v : Value} (h : (coerce p remote stored).result = .ok v)
    {w : Value} (hw : stored.at? path = some w) : v.at? path = some w := by
  suffices hkeeps : p.KeepsAt path from hkeeps remote stored v w h hw
  clear h hw
  induction hp with
  | here hwrite =>
    intro remote stored v w h hw
    rw [coerce_writeOnly hwrite] at h
    exact Except.ok.inj h ▸ hw
  | child hk hc _ ih =>
    intro remote stored v w h hw
    cases ok_coerce.mp h with
    | writeOnly => exact hw
    | object _ _ hm => exact at?_mergeObject hn.own hc (ih (hn.children hc)) hm hw
    | list _ hk' => cases hk.symm.trans hk'
    | set _ hk' => cases hk.symm.trans hk'
    | primitives _ hk' => rcases hk' with hk' | hk' <;> cases hk.symm.trans hk'
    | scalar _ hk' => rw [hk] at hk'; cases hk'
  | element hk i hc _ ih =>
    intro remote stored v w h hw
    cases ok_coerce.mp h with
    | writeOnly => exact hw
    | object _ hk' => cases hk.symm.trans hk'
    | list _ _ _ hm =>
      refine at?_mergeList ?_ hm hw
      intro remote stored v w
      exact at?_mergeObject hn.own hc (ih (hn.children hc))
    | set _ hk' => cases hk.symm.trans hk'
    | primitives _ _ he =>
      have hnone : _ = none := Option.isNone_iff_eq_none.mp (by simpa using he)
      rw [children, hnone] at hc
      cases hc
    | scalar _ hk' => rw [hk] at hk'; cases hk'

def sampleSecret : Property := { name := "secretPart", kind := .string, writeOnly := true }

def sampleKeys : Property :=
  { name := "apiKeys", kind := .list
    element := some ⟨[{ name := "label", kind := .string }, sampleSecret], true⟩ }

def sampleAccount : Property :=
  { name := "account", kind := .object
    element := some ⟨[{ name := "userName", kind := .string }, sampleKeys], true⟩ }

theorem writeOnlyAt_sampleAccount (i : Nat) :
    sampleAccount.WriteOnlyAt [.key "api_keys", .place i, .key "secret_part"] := by
  have hkeys : sampleKeys.stateName = "api_keys" := by decide +kernel
  have hsecret : sampleSecret.stateName = "secret_part" := by decide +kernel
  rw [← hkeys, ← hsecret]
  have hmem : sampleKeys ∈ sampleAccount.children := by simp [children, sampleAccount]
  have hmem' : sampleSecret ∈ sampleKeys.children := by simp [children, sampleKeys]
  exact .child rfl hmem (.element rfl i hmem' (.here rfl))

def sentAccount : Value :=
  .array [.object [("userName", .string "n"), ("apiKeys", .array [.null])]]

/-- The account is plain here, and its second key is in an array of its own. -/
def storedAccount : Value :=
  .object [("api_keys", .array [.object [("label", .string "a")],
    .array [.object [("label", .string "b"), ("secret_part", .string "B")]]])]

/-- The remote list is shorter, and its only key is null. -/
theorem at?_sampleAccount : ∃ v, (coerce sampleAccount sentAccount storedAccount).result = .ok v ∧
    v.at? [.key "api_keys", .place 1, .key "secret_part"] = some (.string "B") := by
  have hnames : sampleAccount.Throughout NamesDistinct := by decide +kernel
  obtain ⟨v, hv, -⟩ := Traced.ok_of_passes (show Traced.passes (fun _ => true)
    (coerce sampleAccount sentAccount storedAccount).result = true by decide +kernel)
  exact ⟨v, hv, at?_coerce hnames (writeOnlyAt_sampleAccount 1) hv rfl⟩

end Property

end Reconciliation
