import Reconciliation.Proofs.Merge.Acceptance
import Reconciliation.Proofs.Merge.Again
import Reconciliation.Proofs.Value.Decision

/-! # When a merge fails, and with which error

A merge visits a remote value in the order of its places, and what is stored can neither add a fault
nor hide one: stored elements beyond the remote ones are merged with null, and elements of a set that
are skipped as duplicates are merged before they are skipped.
-/
namespace Reconciliation

open Merge

/-! ## Checks of one place -/

namespace Merge

theorem error?_remoteEntries (name : String) (remote : Value) :
    (Traced.ofExcept (remoteEntries name remote)).error? = objectFault? name remote := by
  rw [Traced.error?, Traced.result_ofExcept, remoteEntries, objectFault?]
  cases remote.unwrapped <;> rfl

theorem error?_remoteItems (name : String) (remote : Value) :
    (Traced.ofExcept (remoteItems name remote)).error? = arrayFault? name remote := by
  cases remote <;> rfl

theorem error?_primitives (name : String) (remote : Value) :
    (Traced.ofExcept (primitives name remote)).error? = arrayFault? name remote := by
  cases remote <;> rfl

theorem error?_scalar {kind : Kind} (hk : kind.isPrimitive = true) (name : String)
    (remote : Value) :
    (Traced.ofExcept (scalar name kind remote)).error? = scalarFault? name kind remote := by
  cases kind with
  | integer =>
    cases remote with
    | float x =>
      have hfault : scalarFault? name .integer (.float x) =
          if x.truncated?.isSome then none else some (.notScalar name .integer "float") := by
        rw [Binary64.truncated?, Option.isSome_map]
        rfl
      rw [hfault]
      unfold scalar
      dsimp only
      cases x.truncated? <;> rfl
    | _ => rfl
  | float =>
    cases remote with
    | int n =>
      have hfault : scalarFault? name .float (.int n) =
          if (Binary64.ofInt? n).isSome then none else some .integerTooLarge := rfl
      rw [hfault]
      unfold scalar
      dsimp only
      cases Binary64.ofInt? n <;> rfl
    | _ => rfl
  | string => cases remote <;> rfl
  | boolean => cases remote <;> rfl
  | _ => cases hk

/-- How a place can be at fault: what stands there has the wrong shape, or it is an integer without a
number near it. -/
inductive Place.Faulty : Place → MergeError → Prop
  | notObject {place : Place} {name : String} {shape : Value.Shape} :
      Faulty place (.notObject name shape)
  | notArray {place : Place} {name : String} {shape : Value.Shape} :
      Faulty place (.notArray name shape)
  | notScalar {place : Place} {name received : String} {kind : Kind} :
      Faulty place (.notScalar name kind received)
  | tooLarge {p : Property} {n : Int} (hw : p.writeOnly = false) (hk : p.kind = .float)
      (hn : Binary64.ofInt? n = none) : Faulty (.value p (.int n)) .integerTooLarge

theorem Place.faulty_of_fault? {place : Place} {e : MergeError} (h : place.fault? = some e) :
    place.Faulty e := by
  have hobject {name : String} {v : Value} (h : objectFault? name v = some e) :
      place.Faulty e := by
    unfold objectFault? at h
    split at h <;> cases h
    exact .notObject
  have harray {name : String} {v : Value} (h : arrayFault? name v = some e) :
      place.Faulty e := by
    unfold arrayFault? at h
    split at h <;> cases h
    exact .notArray
  cases place with
  | element p v => exact hobject h
  | value p v =>
    rw [fault?] at h
    split at h
    · cases h
    rename_i hw
    split at h
    · exact hobject h
    · exact harray h
    · exact harray h
    · unfold scalarFault? at h
      split at h
      · cases h
      rename_i hrejects
      split at h
      · rename_i n hk
        obtain rfl := Option.some.inj h
        refine .tooLarge (eq_false_of_ne_true hw) hk ?_
        rw [← Option.not_isSome_iff_eq_none]
        intro hsome
        apply hrejects
        rw [hk, Kind.accepts, hsome]
        rfl
      · cases h
        exact .notScalar

end Merge

namespace Property

/-! ## The error of a merge is the first fault -/

def FailsFirst (p : Property) : Prop :=
  ∀ remote stored, (coerce p remote stored).error? = p.fault? remote

section Elements

variable {p : Property} (ih : ∀ c ∈ p.children, c.FailsFirst)
include ih

theorem error?_mergeObject (he : p.element.isSome = true) (remote stored : Value) :
    (p.mergeObject remote stored).error? = p.elementFault? remote := by
  obtain ⟨s, he⟩ := Option.isSome_iff_exists.mp he
  rw [mergeObject_some he, elementFault?, ← error?_remoteEntries]
  apply Traced.error?_bind
  intro es hes
  obtain rfl := remoteEntries_ok hes
  rw [Traced.error?_bind_pure, Traced.error?_mapM, childFault?]
  apply Lists.findSome?_congr
  intro c hc
  rw [mergeChild, Traced.error?_bind_pure]
  exact ih c hc _ _

theorem error?_list (he : p.element.isSome = true) (remote stored : List Value) :
    (list p.mergeObject remote stored).error? = remote.findSome? p.elementFault? := by
  rw [list, Traced.error?_mapM]
  have hmerge (pair : Value × Value) :
      (p.mergeObject pair.1 pair.2).error? = p.elementFault? pair.1 :=
    error?_mergeObject ih he pair.1 pair.2
  simp only [hmerge]
  induction remote generalizing stored with
  | nil =>
    rw [paired, List.findSome?_nil, List.findSome?_eq_none_iff]
    intro pair hpair
    obtain ⟨s, -, rfl⟩ := List.mem_map.mp hpair
    exact p.elementFault?_null
  | cons r rs hrest =>
    cases stored with
    | nil => rw [paired, Lists.findSome?_cons_or, Lists.findSome?_cons_or, hrest]
    | cons s ss => rw [paired, Lists.findSome?_cons_or, Lists.findSome?_cons_or, hrest]

/-- Elements that are skipped are merged before. -/
theorem error?_distinct (he : p.element.isSome = true) (stored : Value → Value)
    (seen : List UInt32) (remote : List Value) :
    (distinct p.name p.mergeObject stored seen remote).error? =
      remote.findSome? p.elementFault? := by
  induction remote generalizing seen with
  | nil => rfl
  | cons r rs hrest =>
    rw [distinct, Lists.findSome?_cons_or, ← error?_mergeObject ih he r (stored r)]
    apply Traced.error?_bind
    intro v _
    dsimp only
    split
    · rw [Traced.error?_bind fun _ _ => hrest seen]
      rfl
    · rw [Traced.error?_bind_pure]
      exact hrest _

theorem error?_mergeList (he : p.element.isSome = true)
    (remote stored : Value) : (p.mergeList remote stored).error? =
      (arrayFault? p.name remote).or (remote.items.findSome? p.elementFault?) := by
  rw [mergeList, ← error?_remoteItems]
  apply Traced.error?_bind
  intro rs hrs
  obtain rfl := remoteItems_ok hrs
  rw [Traced.error?_bind_pure]
  exact error?_list ih he _ _

theorem error?_mergeSet (he : p.element.isSome = true) (remote stored : Value) :
    (p.mergeSet remote stored).error? =
      (arrayFault? p.name remote).or (remote.items.findSome? p.elementFault?) := by
  rw [mergeSet, ← error?_remoteItems]
  apply Traced.error?_bind
  intro rs hrs
  obtain rfl := remoteItems_ok hrs
  rw [Traced.error?_bind_pure, set_eq]
  exact error?_distinct ih he _ _ _

end Elements

/-- The error of a merge is the first fault of the remote value, whatever is stored. -/
theorem coerce_error? {p : Property} (hp : p.Throughout Mergeable) : p.FailsFirst := by
  induction p with
  | step p ih =>
    have ih : ∀ c ∈ p.children, c.FailsFirst := fun c hc => ih c hc (hp.children hc)
    have hplain {e : MergeError} (hk : p.kind.isCollection = true) (he : ¬p.element.isSome = true)
        (remote : Value) : (if p.itemKind.any Kind.isPrimitive
          then Traced.ofExcept (primitives p.name remote) else Traced.throw e : Merged Value).error? =
        (arrayFault? p.name remote).or none := by
      rw [if_pos ((hp.own.collection hk).resolve_left he), error?_primitives, Option.or_none]
    intro remote stored
    rw [coerce_eq, fault?_eq, Place.fault?]
    by_cases hw : p.writeOnly = true
    · rw [if_pos hw, if_pos hw, if_pos hw]
      rfl
    rw [if_neg hw, if_neg hw, if_neg hw]
    cases hk : p.kind with
    | object => exact error?_mergeObject ih (hp.own.object hk) remote stored
    | list =>
      dsimp only
      split
      · exact error?_mergeList ih ‹_› remote stored
      · exact hplain (by rw [hk]; rfl) ‹_› remote
    | set =>
      dsimp only
      split
      · exact error?_mergeSet ih ‹_› remote stored
      · exact hplain (by rw [hk]; rfl) ‹_› remote
    | other name => exact absurd hk (hp.own.known name)
    | _ => exact (error?_scalar rfl p.name remote).trans (Option.or_none).symm

/-! ## Declared properties -/

/-- An error is the fault of a place of a remote value, and no place before it is at fault. The error
names the property of that place, but for an integer that no number is near. -/
def FirstFault (p : Property) (remote : Value) (e : MergeError) : Prop :=
  ∃ before place after, p.places remote = before ++ place :: after ∧
    (∀ earlier ∈ before, earlier.fault? = none) ∧ place.fault? = some e ∧
    (e.property? = some place.property.name ∨
      e = .integerTooLarge ∧ place.property.kind = .float)

theorem firstFault_iff {p : Property} {remote : Value} {e : MergeError} :
    p.FirstFault remote e ↔ p.fault? remote = some e := by
  rw [fault?, List.findSome?_eq_some_iff]
  constructor
  · rintro ⟨before, place, after, hplaces, hbefore, hfault, -⟩
    exact ⟨before, place, after, hplaces, hfault, hbefore⟩
  · rintro ⟨before, place, after, hplaces, hfault, hbefore⟩
    exact ⟨before, place, after, hplaces, hbefore, hfault, Place.property?_of_fault? hfault⟩

/-- A declared property merges exactly the remote values that it accepts, whatever is stored, and
fails on the others with their first fault. -/
theorem coerce_ok_iff_accepts {declaration : Value} {s : Schema}
    (hs : Declaration.schema declaration = .ok s) {p : Property} (hp : s.Reaches p)
    (remote stored : Value) :
    ((∃ v, (coerce p remote stored).result = .ok v) ↔ p.Accepts remote) ∧
      ∀ e, (coerce p remote stored).result = .error e ↔ p.FirstFault remote e := by
  have hmergeable : p.Throughout Mergeable :=
    Declaration.reaches_of_schema (fun _ _ _ _ => Declaration.mergeable_of_property) hs hp
  have herror := coerce_error? hmergeable remote stored
  constructor
  · rw [← Traced.error?_eq_none_iff, herror]
    exact fault?_eq_none_iff hmergeable remote
  · intro e
    rw [← Traced.error?_eq_some_iff, herror, firstFault_iff]

def gates : Property :=
  { name := "gates", kind := .list
    element := some ⟨[
      { name := "lock", kind := .object
        element := some ⟨[{ name := "pin", kind := .string }], true⟩ },
      { name := "width", kind := .float }], true⟩ }

def gateDeclaration : Value :=
  .object [("wrap_nested_objects", .bool true), ("properties", .array [
    .object [("name", .string "gates"), ("type", .string "list"),
      ("items", .object [("properties", .array [
        .object [("name", .string "lock"), ("type", .string "object"), ("properties", .array [
          .object [("name", .string "pin"), ("type", .string "string")]])],
        .object [("name", .string "width"), ("type", .string "number")]])])]])]

/-- The second gate has two faults: the pin of its lock, which comes first, and its width. -/
def gateReadings : Value :=
  .array [.object [("width", .int 2)],
    .object [("width", .bool true), ("lock", .array [.object [("pin", .int 5)]])], .null]

theorem gates_fail : Declaration.schema gateDeclaration = .ok ⟨[gates], true⟩ ∧
    ¬gates.Accepts gateReadings ∧
    ∀ stored, (coerce gates gateReadings stored).result =
      .error (.notScalar "pin" .string "int") := by
  have hs : Declaration.schema gateDeclaration = .ok ⟨[gates], true⟩ := rfl
  have hfirst : gates.FirstFault gateReadings (.notScalar "pin" .string "int") := by
    rw [firstFault_iff]
    decide +kernel
  have hmerge := coerce_ok_iff_accepts hs (.top List.mem_cons_self) gateReadings
  have herror (stored : Value) := ((hmerge stored).2 _).mpr hfirst
  refine ⟨hs, ?_, herror⟩
  intro haccepts
  obtain ⟨v, hv⟩ := (hmerge .null).1.mpr haccepts
  rw [herror] at hv
  cases hv

end Property

end Reconciliation
