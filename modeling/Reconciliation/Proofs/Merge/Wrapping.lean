import Reconciliation.Proofs.Merge.Memory

/-! # Objects in one-element arrays

Whether the objects of a nested schema are stored in one-element arrays is up to that schema. Apart
from those arrays the merge gives the same tree whatever the schemas ask for, and it reads the tree
alike. So what was stored under one policy can be merged under another.
-/
namespace Reconciliation

open Merge
open Traced (Related)

namespace Property

/-! ## Properties without wrapping -/

mutual

/-- The property with all objects stored as they are: no nested schema asks for arrays. -/
def plain (p : Property) : Property :=
  match p with
  | ⟨name, kind, writeOnly, ignoreOrder, element, itemKind, isIdentifier, preferred, key⟩ =>
    ⟨name, kind, writeOnly, ignoreOrder, plainElement element, itemKind, isIdentifier, preferred,
      key⟩
termination_by structural p

def plainElement (element : Option Schema) : Option Schema :=
  match element with
  | none => none
  | some ⟨children, _⟩ => some ⟨plainAll children, false⟩
termination_by structural element

def plainAll (children : List Property) : List Property :=
  match children with
  | [] => []
  | p :: ps => plain p :: plainAll ps
termination_by structural children

end

@[simp] theorem name_plain (p : Property) : p.plain.name = p.name := by
  cases p
  rfl

@[simp] theorem kind_plain (p : Property) : p.plain.kind = p.kind := by
  cases p
  rfl

@[simp] theorem writeOnly_plain (p : Property) : p.plain.writeOnly = p.writeOnly := by
  cases p
  rfl

@[simp] theorem itemKind_plain (p : Property) : p.plain.itemKind = p.itemKind := by
  cases p
  rfl

@[simp] theorem stateName_plain (p : Property) : p.plain.stateName = p.stateName := by
  cases p
  rfl

theorem plainAll_eq (ps : List Property) : plainAll ps = ps.map plain := by
  induction ps with
  | nil => rfl
  | cons p ps ih => rw [plainAll, ih, List.map_cons]

theorem element_plain (p : Property) :
    p.plain.element = p.element.map fun s => ⟨s.properties.map plain, false⟩ := by
  obtain ⟨name, kind, writeOnly, ignoreOrder, element, itemKind, isIdentifier, preferred, key⟩ := p
  rw [plain]
  cases element with
  | none => rfl
  | some s =>
    obtain ⟨children, wraps⟩ := s
    rw [plainElement, plainAll_eq]
    rfl

@[simp] theorem children_plain (p : Property) : p.plain.children = p.children.map plain := by
  rw [children, children, element_plain]
  cases p.element <;> rfl

@[simp] theorem wraps_plain (p : Property) : p.plain.wraps = false := by
  rw [wraps, element_plain]
  cases p.element <;> simp

/-- What does not depend on the wrapping holds throughout both properties or neither. -/
theorem throughout_plain {P : Property → Prop} (hP : ∀ q, P q.plain ↔ P q) {p : Property} :
    p.plain.Throughout P ↔ p.Throughout P := by
  induction p with
  | step p ih =>
    constructor
    · intro h
      apply Throughout.mk ((hP p).mp h.own)
      intro c hc
      apply (ih c hc).mp
      apply h.children
      rw [children_plain]
      exact List.mem_map_of_mem hc
    · intro h
      apply Throughout.mk ((hP p).mpr h.own)
      rw [children_plain, List.forall_mem_map]
      intro c hc
      exact (ih c hc).mpr (h.children hc)

theorem namesDistinct_plain (p : Property) : p.plain.NamesDistinct ↔ p.NamesDistinct := by
  have hnames : (p.children.map plain).map stateName = p.children.map stateName := by
    rw [List.map_map]
    exact List.map_congr_left fun c _ => stateName_plain c
  rw [NamesDistinct, NamesDistinct, children_plain, hnames]

def NoObjectSet (p : Property) : Prop := p.kind = .set → p.element.isSome = false

instance : DecidablePred NoObjectSet := fun p =>
  inferInstanceAs (Decidable (p.kind = .set → p.element.isSome = false))

theorem noObjectSet_plain (p : Property) : p.plain.NoObjectSet ↔ p.NoObjectSet := by
  rw [NoObjectSet, NoObjectSet, kind_plain, element_plain, Option.isSome_map]

/-! ## Values without wrapping -/

mutual

/-- A value of the property with its objects taken out of their one-element arrays. What is
write-only stays as it is. -/
def unwrap (p : Property) (v : Value) : Value :=
  match p with
  | ⟨_, kind, writeOnly, _, element, _, _, _, _⟩ =>
    if writeOnly then v
    else match kind, v with
      | .object, v => unwrapElement element v
      | .list, .array xs => .array (xs.map (unwrapElement element))
      | .set, .array xs => .array (xs.map (unwrapElement element))
      | _, v => v
termination_by structural p

def unwrapElement (element : Option Schema) (v : Value) : Value :=
  match element with
  | none => v
  | some ⟨children, _⟩ =>
    match v.unwrapped with
    | .object es => .object (Entries.mapKeyed (unwrapField children) es)
    | _ => v
termination_by structural element

def unwrapField (children : List Property) (key : String) (v : Value) : Value :=
  match children with
  | [] => v
  | c :: cs => if c.stateName = key then unwrap c v else unwrapField cs key v
termination_by structural children

end

theorem unwrap_eq (p : Property) (v : Value) : p.unwrap v =
    if p.writeOnly then v
    else match p.kind, v with
      | .object, v => unwrapElement p.element v
      | .list, .array xs => .array (xs.map (unwrapElement p.element))
      | .set, .array xs => .array (xs.map (unwrapElement p.element))
      | _, v => v := by
  obtain ⟨name, kind, writeOnly, ignoreOrder, element, itemKind, isIdentifier, preferred, key⟩ := p
  rw [unwrap.eq_def]

theorem unwrapElement_some (s : Schema) (v : Value) : unwrapElement (some s) v =
    match v.unwrapped with
    | .object es => .object (Entries.mapKeyed (unwrapField s.properties) es)
    | _ => v := by
  cases s
  rw [unwrapElement.eq_def]

theorem unwrap_writeOnly {p : Property} (hw : p.writeOnly = true) (v : Value) :
    p.unwrap v = v := by
  rw [unwrap_eq, if_pos hw]

theorem unwrap_object {p : Property} (hw : p.writeOnly = false) (hk : p.kind = .object)
    (v : Value) : p.unwrap v = unwrapElement p.element v := by
  rw [unwrap_eq, hw, if_neg Bool.false_ne_true, hk]

theorem unwrap_list {p : Property} (hw : p.writeOnly = false) (hk : p.kind = .list)
    (xs : List Value) : p.unwrap (.array xs) = .array (xs.map (unwrapElement p.element)) := by
  rw [unwrap_eq, hw, if_neg Bool.false_ne_true, hk]

theorem items_unwrap {p : Property} (hw : p.writeOnly = false) (hk : p.kind = .list) (v : Value) :
    (p.unwrap v).items = v.items.map (unwrapElement p.element) := by
  cases v with
  | array xs =>
    rw [unwrap_list hw hk]
    rfl
  | _ =>
    rw [unwrap_eq, hw, if_neg Bool.false_ne_true, hk]
    rfl

theorem unwrap_of_noObjects {p : Property} (hk : p.kind ≠ .object)
    (he : p.kind.isCollection = true → p.element = none) (v : Value) : p.unwrap v = v := by
  have hitems (xs : List Value) : xs.map (unwrapElement none) = xs := List.map_id xs
  rw [unwrap_eq]
  split
  · rfl
  · split
    · exact absurd ‹_› hk
    · rw [he (by simp_all [Kind.isCollection]), hitems]
    · rw [he (by simp_all [Kind.isCollection]), hitems]
    · rfl

theorem unwrap_null (p : Property) : p.unwrap .null = .null := by
  have helement : unwrapElement p.element .null = .null := by
    cases p.element with
    | none => rfl
    | some s => rw [unwrapElement_some]; rfl
  rw [unwrap_eq]
  split
  · rfl
  · cases p.kind <;> first | exact helement | rfl

theorem unwrapField_stateName {p : Property} (hn : p.NamesDistinct) {c : Property}
    (hc : c ∈ p.children) (v : Value) :
    unwrapField p.children c.stateName v = c.unwrap v := by
  rw [NamesDistinct] at hn
  generalize p.children = cs at hn hc
  induction cs with
  | nil => cases hc
  | cons d ds ih =>
    rw [List.map_cons, List.nodup_cons] at hn
    rw [unwrapField]
    rcases List.mem_cons.mp hc with rfl | hc
    · rw [if_pos rfl]
    · have hne : d.stateName ≠ c.stateName := by
        intro heq
        exact hn.1 (heq ▸ List.mem_map_of_mem hc)
      rw [if_neg hne, ih hn.2 hc]

theorem entries_unwrapElement (p : Property) (v : Value) :
    (unwrapElement p.element v).entries = Entries.mapKeyed (unwrapField p.children) v.entries := by
  cases he : p.element with
  | none =>
    rw [children, he]
    exact (List.map_id _).symm
  | some s =>
    rw [children_of_element he, unwrapElement_some, Value.entries, Value.entries]
    cases hv : v.unwrapped with
    | object es => rfl
    | _ =>
      rw [hv]
      rfl

theorem field_unwrapElement {p : Property} (hn : p.NamesDistinct) {c : Property}
    (hc : c ∈ p.children) (v : Value) :
    Value.field (unwrapElement p.element v).entries c.stateName =
      c.unwrap (Value.field v.entries c.stateName) := by
  rw [entries_unwrapElement, Value.field, Entries.get?_mapKeyed, Value.field]
  cases v.entries.get? c.stateName with
  | none => exact (unwrap_null c).symm
  | some w => exact unwrapField_stateName hn hc w

theorem unwrapElement_wrapped {p : Property} (he : p.element.isSome = true) (wraps : Bool)
    (es : Entries Value) : unwrapElement p.element (wrapped wraps es) =
      .object (Entries.mapKeyed (unwrapField p.children) es) := by
  obtain ⟨s, hs⟩ := Option.isSome_iff_exists.mp he
  rw [children_of_element hs, hs, unwrapElement_some]
  cases wraps <;> rfl

/-- Where the objects stand does not depend on the wrapping. -/
theorem unwrap_plain (p : Property) : p.plain.unwrap = p.unwrap := by
  induction p with
  | step p ih =>
    have hfield : unwrapField (p.children.map plain) = unwrapField p.children := by
      funext key v
      generalize p.children = cs at ih
      induction cs with
      | nil => rfl
      | cons c cs ihs =>
        rw [List.forall_mem_cons] at ih
        rw [List.map_cons, unwrapField, unwrapField, stateName_plain, ih.1, ihs ih.2]
    have helement : unwrapElement p.plain.element = unwrapElement p.element := by
      funext v
      rw [element_plain]
      cases he : p.element with
      | none => rfl
      | some s =>
        rw [children_of_element he] at hfield
        rw [Option.map_some, unwrapElement_some, unwrapElement_some, hfield]
    funext v
    rw [unwrap_eq, unwrap_eq, writeOnly_plain, kind_plain, helement]

/-! ## What is stored, with or without wrapping -/

/-- The merge reads a stored value alike without its wrapping. -/
theorem storedAlike_unwrap {p : Property} (hn : p.Throughout NamesDistinct)
    (hs : p.Throughout NoObjectSet) (v : Value) : p.StoredAlike v (p.unwrap v) := by
  induction p generalizing v with
  | step p ih =>
    by_cases hw : p.writeOnly = true
    · rw [unwrap_writeOnly hw]
      exact .same v
    have hw : p.writeOnly = false := eq_false_of_ne_true hw
    have hchildren : ∀ x, ∀ c ∈ p.children, StoredAlike c (Value.field x.entries c.stateName)
        (Value.field (unwrapElement p.element x).entries c.stateName) := by
      intro x c hc
      rw [field_unwrapElement hn.own hc]
      exact ih c hc (hn.children hc) (hs.children hc) _
    by_cases hobject : p.kind = .object
    · rw [unwrap_object hw hobject]
      exact .object hw hobject (hchildren v)
    by_cases hlist : p.kind = .list
    · have hitems : List.Forall₂ (fun x y => ∀ c ∈ p.children, StoredAlike c
          (Value.field x.entries c.stateName) (Value.field y.entries c.stateName))
          v.items (p.unwrap v).items := by
        rw [items_unwrap hw hlist, List.forall₂_map_right_iff, List.forall₂_same]
        exact fun x _ => hchildren x
      obtain ⟨hlength, hzip⟩ := List.forall₂_iff_zip.mp hitems
      exact .list hw hlist hlength fun pair hpair => hzip hpair
    -- There is no set of objects, so what is left are scalars and collections of scalars.
    · apply StoredAlike.scalars hw hobject
      have hset := hs.own
      cases hk : p.kind <;> simp_all [isObjectCollection, Kind.isCollection, NoObjectSet]

/-! ## Merging with and without wrapping -/

def MergesUnwrapped (p : Property) : Prop :=
  ∀ remote stored, Related (fun v w => p.unwrap v = w) (coerce p remote stored)
    (coerce p.plain remote stored)

section Objects

variable {p : Property} (hn : p.NamesDistinct) (ih : ∀ c ∈ p.children, c.MergesUnwrapped)
include hn ih

/-- The merged children have the same keys, each with its unwrapped value. -/
theorem mapM_mergeChild_plain (remote stored : Entries Value) :
    Related (fun es fs => Entries.mapKeyed (unwrapField p.children) es = fs)
      (p.children.mapM (mergeChild remote stored))
      (p.plain.children.mapM (mergeChild remote stored)) := by
  apply Related.mapM_map
  rw [children_plain, List.forall₂_map_right_iff, List.forall₂_same]
  intro c hc
  rw [mergeChild, mergeChild, name_plain, stateName_plain]
  apply (ih c hc _ _).bind
  rintro v _ rfl
  apply Related.pure
  rw [unwrapField_stateName hn hc]

theorem mergeObject_plain (remote stored : Value) :
    Related (fun v w => unwrapElement p.element v = w) (p.mergeObject remote stored)
      (p.plain.mergeObject remote stored) := by
  have hplain := element_plain p
  cases he : p.element with
  | none =>
    rw [he, Option.map_none] at hplain
    rw [mergeObject_none he, mergeObject_none hplain, name_plain]
    exact Related.throw _
  | some s =>
    rw [he, Option.map_some] at hplain
    rw [mergeObject_some he, mergeObject_some hplain, name_plain]
    apply Related.bind_same
    intro r
    apply (mapM_mergeChild_plain hn ih r stored.entries).bind
    rintro es _ rfl
    apply Related.pure
    rw [← he, unwrapElement_wrapped (he ▸ rfl), wraps_plain, Entries.mapKeyed_ofList]
    rfl

theorem mergeList_plain (hw : p.writeOnly = false) (hk : p.kind = .list) (remote stored : Value) :
    Related (fun v w => p.unwrap v = w) (p.mergeList remote stored)
      (p.plain.mergeList remote stored) := by
  rw [mergeList, mergeList, name_plain]
  apply Related.bind_same
  intro rs
  have hitems : Related (fun vs ws => vs.map (unwrapElement p.element) = ws)
      (Merge.list p.mergeObject rs stored.items)
      (Merge.list p.plain.mergeObject rs stored.items) := by
    apply Related.mapM_map
    rw [List.forall₂_same]
    intro pair _
    exact mergeObject_plain hn ih pair.1 pair.2
  apply hitems.bind
  rintro vs _ rfl
  exact Related.pure (unwrap_list hw hk vs)

end Objects

theorem coerce_plain_of_noObjects {p : Property} (hk : p.kind ≠ .object)
    (he : p.kind.isCollection = true → p.element = none) (remote stored : Value) :
    coerce p.plain remote stored = coerce p remote stored := by
  rw [coerce_eq, coerce_eq, writeOnly_plain, kind_plain, name_plain, itemKind_plain, element_plain,
    Option.isSome_map]
  split
  · rfl
  · split
    · exact absurd ‹_› hk
    · rw [he (by simp_all [Kind.isCollection])]
      rfl
    · rw [he (by simp_all [Kind.isCollection])]
      rfl
    · rfl

theorem mergesUnwrapped {p : Property} (hn : p.Throughout NamesDistinct)
    (hs : p.Throughout NoObjectSet) : p.MergesUnwrapped := by
  induction p with
  | step p ih =>
    intro remote stored
    have hchildren : ∀ c ∈ p.children, c.MergesUnwrapped := by
      intro c hc
      exact ih c hc (hn.children hc) (hs.children hc)
    by_cases hw : p.writeOnly = true
    · rw [coerce_writeOnly hw, coerce_writeOnly ((writeOnly_plain p).trans hw)]
      exact Related.pure (unwrap_writeOnly hw stored)
    have hw : p.writeOnly = false := eq_false_of_ne_true hw
    by_cases hobject : p.kind = .object
    · rw [coerce_eq, coerce_eq, writeOnly_plain, kind_plain, hw, hobject]
      apply (mergeObject_plain hn.own hchildren remote stored).imp
      intro v w h
      rw [unwrap_object hw hobject, h]
    by_cases hlist : p.kind = .list ∧ p.element.isSome = true
    · obtain ⟨hlist, he⟩ := hlist
      rw [coerce_list hlist hw, coerce_list ((kind_plain p).trans hlist) ((writeOnly_plain p).trans hw),
        element_plain, Option.isSome_map, he]
      exact mergeList_plain hn.own hchildren hw hlist remote stored
    · have hnone : p.kind.isCollection = true → p.element = none := by
        intro hk
        have hset := hs.own
        cases hkind : p.kind <;> simp_all [Kind.isCollection, NoObjectSet]
      rw [coerce_plain_of_noObjects hobject hnone]
      exact Related.refl (unwrap_of_noObjects hobject hnone) _

/-! ## Changing the policy -/

/-- The wrapping is transparent, and may be changed between reads: two properties that differ in it
alone fail with the same error or merge into trees that are one without the wrapping, and the next
merge has the same outcome with either tree. -/
theorem coerce_rewrapped {p p' : Property} (hp : p.plain = p'.plain)
    (hn : p.Throughout NamesDistinct) (hs : p.Throughout NoObjectSet) (remote stored : Value) :
    Related (fun v v' => p.unwrap v = p'.unwrap v' ∧
        ∀ next, coerce p' next v = coerce p' next v')
      (coerce p remote stored) (coerce p' remote stored) := by
  have hn' : p'.Throughout NamesDistinct := by
    rwa [← throughout_plain namesDistinct_plain, ← hp, throughout_plain namesDistinct_plain]
  have hs' : p'.Throughout NoObjectSet := by
    rwa [← throughout_plain noObjectSet_plain, ← hp, throughout_plain noObjectSet_plain]
  have hunwrap : p.unwrap = p'.unwrap := by
    rw [← unwrap_plain p, hp, unwrap_plain]
  have hplain := mergesUnwrapped hn hs remote stored
  rw [hp] at hplain
  apply (hplain.join (mergesUnwrapped hn' hs' remote stored)).imp
  rintro v v' ⟨w, hv, hv'⟩
  -- The next merge reads both trees as it reads what they are without the wrapping.
  have hread (x next : Value) : coerce p' next x = coerce p' next (p'.unwrap x) :=
    coerce_eq_of_storedAlike (storedAlike_unwrap hn' hs' x) next
  refine ⟨hv.trans hv'.symm, fun next => ?_⟩
  rw [hread v, hread v', hv', ← hunwrap, hv]

/-- A site with a vault that is kept, an owner, and hosts in order, each with a network and a token
that is kept. The one flag is for the site, its vault and the networks, the other one for the owner
and the hosts. -/
def sampleSite (wraps wrapsOwner : Bool) : Property :=
  { name := "site", kind := .object
    element := some ⟨[
      { name := "vault", kind := .object, writeOnly := true, element := some ⟨[], wraps⟩ },
      { name := "siteOwner", kind := .object
        element := some ⟨[{ name := "eMail", kind := .string }], wrapsOwner⟩ },
      { name := "hosts", kind := .list
        element := some ⟨[
          { name := "network", kind := .object
            element := some ⟨[{ name := "vlanId", kind := .integer }], wraps⟩ },
          { name := "token", kind := .string, writeOnly := true }], wrapsOwner⟩ }], wraps⟩ }

def sentSite : Value :=
  .object [("hosts", .array [.array [.object [("network", .object [("vlanId", .int 2)])]]]),
    ("siteOwner", .array [.object [("eMail", .string "o")]])]

/-- The second host is stored in an array of its own, and the vault is in one. -/
def storedSite : Value :=
  .object [("vault", .array [.object [("pin", .int 1)]]),
    ("hosts", .array [.object [("token", .string "t")], .array [.object [("token", .string "u")]]])]

def mergedSite (wraps wrapsOwner : Bool) : Value :=
  wrapped wraps [("vault", .array [.object [("pin", .int 1)]]),
    ("site_owner", wrapped wrapsOwner [("e_mail", .string "o")]),
    ("hosts", .array [
      .object [("network", wrapped wraps [("vlan_id", .int 2)]), ("token", .string "t")],
      .object [("network", wrapped wraps [("vlan_id", .null)]), ("token", .string "u")]])]

/-- All the flags are changed after the first read. -/
theorem sampleSite_rewrapped :
    (coerce (sampleSite true false) sentSite storedSite).result = .ok (mergedSite true false) ∧
      (coerce (sampleSite false true) sentSite storedSite).result = .ok (mergedSite false true) ∧
      (sampleSite true false).unwrap (mergedSite true false) =
        (sampleSite false true).unwrap (mergedSite false true) ∧
      ∀ next, coerce (sampleSite false true) next (mergedSite true false) =
        coerce (sampleSite false true) next (mergedSite false true) := by
  have hplain : (sampleSite true false).plain = (sampleSite false true).plain := by decide +kernel
  have hnames : (sampleSite true false).Throughout NamesDistinct := by decide +kernel
  have hsets : (sampleSite true false).Throughout NoObjectSet := by decide +kernel
  have hmerged : (coerce (sampleSite true false) sentSite storedSite).result =
      .ok (mergedSite true false) := by decide +kernel
  have hmerged' : (coerce (sampleSite false true) sentSite storedSite).result =
      .ok (mergedSite false true) := by decide +kernel
  obtain ⟨v, hv, hsame⟩ :=
    (coerce_rewrapped hplain hnames hsets sentSite storedSite).result_ok hmerged
  obtain rfl := Except.ok.inj (hmerged'.symm.trans hv)
  exact ⟨hmerged, hmerged', hsame⟩

end Property

end Reconciliation
