import Reconciliation.Proofs.Lists
import Reconciliation.Proofs.Schema.Shape
import Reconciliation.Proofs.Traced
import Reconciliation.Proofs.Value.Order
import Reconciliation.Schema.Declaration

/-! # What a declared schema is made of

Every property of a declared schema, at any depth, was read from a declaration of its own. So what
the reading of one declaration ensures holds throughout the schema.
-/
namespace Reconciliation

inductive Schema.Reaches (s : Schema) : Property → Prop
  | top {p : Property} (h : p ∈ s.properties) : Reaches s p
  | child {p c : Property} (h : Reaches s p) (hc : c ∈ p.children) : Reaches s c

theorem Schema.Reaches.throughout {s : Schema} {P : Property → Prop}
    (hs : ∀ p ∈ s.properties, p.Throughout P) {p : Property} (h : s.Reaches p) :
    p.Throughout P := by
  induction h with
  | top h => exact hs _ h
  | child _ hc ih => exact ih.children hc

/-- A property that can be merged: its kind is known, an object has a schema, and a collection has a
schema or a kind of scalars. -/
structure Property.Mergeable (p : Property) : Prop where
  known : ∀ name, p.kind ≠ .other name
  object : p.kind = .object → p.element.isSome = true
  collection : p.kind.isCollection = true →
    p.element.isSome = true ∨ p.itemKind.any Kind.isPrimitive = true

namespace Declaration

open Traced (except_bind)

/-! ## The parts of a declaration -/

theorem propertiesEntry_eq (scope : String) (wraps : Bool) (es : Entries Value) :
    propertiesEntry scope wraps es = (es.get? "properties").elim
      (.error (.notList (label scope "properties"))) (propertyList scope wraps) :=
  Entries.search_eq_elim (by rw [propertiesEntry]) (fun _ _ _ => by rw [propertiesEntry]) es

theorem itemsEntry_eq (path : String) (wraps : Bool) (es : Entries Value) :
    itemsEntry path wraps es =
      (es.get? "items").elim (.error (.itemsMissing path)) (items path wraps) :=
  Entries.search_eq_elim (by rw [itemsEntry]) (fun _ _ _ => by rw [itemsEntry]) es

theorem typeEntry_eq (path : String) (wraps : Bool) (es : Entries Value) :
    typeEntry path wraps es =
      (es.get? "type").elim (.error (.itemsMissing path)) (items path wraps) :=
  Entries.search_eq_elim (by rw [typeEntry]) (fun _ _ _ => by rw [typeEntry]) es

theorem ok_propertiesEntry {scope : String} {wraps : Bool} {es : Entries Value}
    {ps : List Property} : propertiesEntry scope wraps es = .ok ps ↔
      ∃ v, es.get? "properties" = some v ∧ propertyList scope wraps v = .ok ps := by
  rw [propertiesEntry_eq, Traced.except_elim]

theorem ok_itemsEntry {path : String} {wraps : Bool} {es : Entries Value} {found : Items} :
    itemsEntry path wraps es = .ok found ↔
      ∃ v, es.get? "items" = some v ∧ items path wraps v = .ok found := by
  rw [itemsEntry_eq, Traced.except_elim]

theorem ok_typeEntry {path : String} {wraps : Bool} {es : Entries Value} {found : Items} :
    typeEntry path wraps es = .ok found ↔
      ∃ v, es.get? "type" = some v ∧ items path wraps v = .ok found := by
  rw [typeEntry_eq, Traced.except_elim]

theorem properties_eq (scope : String) (wraps : Bool) (ds : List Value) :
    properties scope wraps ds = ds.mapM (property scope wraps) := by
  induction ds with
  | nil => rfl
  | cons d ds ih =>
    rw [properties, List.mapM_cons, ih]
    rfl

theorem ok_properties {scope : String} {wraps : Bool} {ds : List Value} {ps : List Property} :
    properties scope wraps ds = .ok ps ↔
      List.Forall₂ (fun d p => property scope wraps d = .ok p) ds ps := by
  rw [properties_eq, Traced.except_mapM]

theorem ok_propertyList {scope : String} {wraps : Bool} {v : Value} {ps : List Property}
    (h : propertyList scope wraps v = .ok ps) : ∃ ds, v = .array ds ∧ ds ≠ [] ∧
      List.Forall₂ (fun d p => property scope wraps d = .ok p) ds ps := by
  cases v with
  | array ds =>
    cases ds with
    | nil => cases h
    | cons d ds => exact ⟨d :: ds, rfl, List.cons_ne_nil _ _, ok_properties.mp h⟩
  | _ => cases h

theorem repeated?_eq_none {seen names : List String} (h : Schema.repeated? seen names = none) :
    names.Nodup ∧ ∀ name ∈ names, name ∉ seen := by
  induction names generalizing seen with
  | nil => exact ⟨List.nodup_nil, by simp⟩
  | cons name names ih =>
    rw [Schema.repeated?] at h
    split at h
    · cases h
    · rename_i hfresh
      obtain ⟨hnodup, hseen⟩ := ih h
      refine ⟨List.nodup_cons.mpr ⟨?_, hnodup⟩, ?_⟩
      · intro hmem
        exact hseen name hmem List.mem_cons_self
      · intro other hother
        rcases List.mem_cons.mp hother with rfl | hmem
        · exact hfresh
        · exact fun hold => hseen other hmem (List.mem_cons_of_mem _ hold)

theorem ok_assembled {scope : String} {inherited : Bool} {es : Entries Value}
    {listed : Bool → Except SchemaError (List Property)} {s : Schema}
    (h : assembled scope inherited es listed = .ok s) :
    wrapping scope inherited es = .ok s.wraps ∧ listed s.wraps = .ok s.properties ∧
      s.propertyNames.Nodup := by
  obtain ⟨wraps, hwraps, h⟩ := except_bind.mp h
  obtain ⟨ps, hps, h⟩ := except_bind.mp h
  rw [Schema.ofProperties] at h
  split at h
  · cases h
  · rename_i hrepeated
    obtain rfl := Except.ok.inj h
    exact ⟨hwraps, hps, (repeated?_eq_none hrepeated).1⟩

/-- What a declaration says that a property of a kind is made of. -/
def parts (path : String) (wraps : Bool) (es : Entries Value) : Kind → Except SchemaError Items
  | .object => do
    let nested ← assembled path wraps es fun wraps => propertiesEntry path wraps es
    .ok (some nested, none)
  | .list | .set => itemsEntry path wraps es
  | _ => .ok (none, none)

def completed (path name : String) (kind : Kind) (es : Entries Value) (found : Items) :
    Except SchemaError Property := do
  let key ← correlationKey path (Value.field es "correlation_key")
  if !key.isEmpty && !(kind = .set && found.1.isSome) then .error (.keyMisplaced path)
  let writeOnly ← flag path "write_only" es
  let ignoreOrder ← flag path "ignore_order" es
  let isIdentifier ← flag path "identifier" es
  let preferred ← preferredName path (Value.field es "preferred_name")
  .ok ⟨name, kind, writeOnly, ignoreOrder, found.1, found.2, isIdentifier, preferred, key⟩

theorem property_object (scope : String) (wraps : Bool) (es : Entries Value) :
    property scope wraps (.object es) = (do
      let name ← name scope es
      let kind ← kind (label scope name) (Value.field es "type")
      let found ← parts (label scope name) wraps es kind
      completed (label scope name) name kind es found) := by
  rw [property]
  apply bind_congr
  intro name
  apply bind_congr
  intro kind
  cases kind with
  | object =>
    simp only [parts, bind_assoc]
    rfl
  | _ => rfl

structure Declares (scope : String) (wraps : Bool) (es : Entries Value) (p : Property) : Prop where
  name : Declaration.name scope es = .ok p.name
  kind : Declaration.kind (label scope p.name) (Value.field es "type") = .ok p.kind
  parts : Declaration.parts (label scope p.name) wraps es p.kind = .ok (p.element, p.itemKind)
  key : correlationKey (label scope p.name) (Value.field es "correlation_key") =
    .ok p.correlationKey
  placed : p.correlationKey ≠ [] → p.kind = .set ∧ p.element.isSome = true

theorem ok_completed {path name : String} {kind : Kind} {es : Entries Value} {found : Items}
    {p : Property} (h : completed path name kind es found = .ok p) :
    p.name = name ∧ p.kind = kind ∧ (p.element, p.itemKind) = found ∧
      correlationKey path (Value.field es "correlation_key") = .ok p.correlationKey ∧
      (p.correlationKey ≠ [] → p.kind = .set ∧ p.element.isSome = true) := by
  obtain ⟨key, hkey, h⟩ := except_bind.mp h
  split at h
  · cases h
  · rename_i hplaced
    obtain ⟨writeOnly, -, h⟩ := except_bind.mp h
    obtain ⟨ignoreOrder, -, h⟩ := except_bind.mp h
    obtain ⟨isIdentifier, -, h⟩ := except_bind.mp h
    obtain ⟨preferred, -, h⟩ := except_bind.mp h
    obtain rfl := Except.ok.inj h
    refine ⟨rfl, rfl, rfl, hkey, ?_⟩
    intro hne
    simpa [hne, Option.isSome_iff_ne_none] using hplaced

theorem ok_property {scope : String} {wraps : Bool} {v : Value} {p : Property}
    (h : property scope wraps v = .ok p) : ∃ es, v = .object es ∧ Declares scope wraps es p := by
  cases v with
  | object es =>
    rw [property_object] at h
    obtain ⟨name, hname, h⟩ := except_bind.mp h
    obtain ⟨kind, hkind, h⟩ := except_bind.mp h
    obtain ⟨found, hparts, h⟩ := except_bind.mp h
    obtain ⟨rfl, rfl, rfl, hkey, hplaced⟩ := ok_completed h
    exact ⟨es, rfl, hname, hkind, hparts, hkey, hplaced⟩
  | _ => cases h

/-! ## From declarations to schemas -/

structure Yields (P : Property → Prop) (v : Value) : Prop where
  list : ∀ {scope wraps ps}, propertyList scope wraps v = .ok ps → ∀ p ∈ ps, p.Throughout P
  property : ∀ {scope wraps p}, property scope wraps v = .ok p → p.Throughout P
  items : ∀ {path wraps found}, items path wraps v = .ok found →
    ∀ s, found.1 = some s → ∀ p ∈ s.properties, p.Throughout P

section Yields

variable {P : Property → Prop} {es : Entries Value} (ih : ∀ e ∈ es, Yields P e.2)
include ih

theorem assembled_yields {scope : String} {inherited : Bool} {s : Schema}
    (h : assembled scope inherited es (fun wraps => propertiesEntry scope wraps es) = .ok s) :
    ∀ p ∈ s.properties, p.Throughout P := by
  obtain ⟨-, hlisted, -⟩ := ok_assembled h
  obtain ⟨v, hv, hlist⟩ := ok_propertiesEntry.mp hlisted
  exact (ih _ (Entries.mem_of_get? hv)).list hlist

theorem parts_yields {path : String} {wraps : Bool} {kind : Kind} {found : Items}
    (h : parts path wraps es kind = .ok found) :
    ∀ s, found.1 = some s → ∀ p ∈ s.properties, p.Throughout P := by
  unfold parts at h
  split at h
  · obtain ⟨nested, hnested, h⟩ := except_bind.mp h
    obtain rfl := Except.ok.inj h
    intro s hs
    obtain rfl := Option.some.inj hs
    exact assembled_yields ih hnested
  · obtain ⟨v, hv, hitems⟩ := ok_itemsEntry.mp h
    exact (ih _ (Entries.mem_of_get? hv)).items hitems
  · obtain ⟨v, hv, hitems⟩ := ok_itemsEntry.mp h
    exact (ih _ (Entries.mem_of_get? hv)).items hitems
  · obtain rfl := Except.ok.inj h
    intro s hs
    cases hs

theorem items_yields {path : String} {wraps : Bool} {found : Items}
    (h : items path wraps (.object es) = .ok found) :
    ∀ s, found.1 = some s → ∀ p ∈ s.properties, p.Throughout P := by
  rw [items] at h
  split at h
  · obtain ⟨nested, hnested, h⟩ := except_bind.mp h
    obtain rfl := Except.ok.inj h
    intro s hs
    obtain rfl := Option.some.inj hs
    exact assembled_yields ih hnested
  · obtain ⟨v, hv, hitems⟩ := ok_typeEntry.mp h
    exact (ih _ (Entries.mem_of_get? hv)).items hitems

end Yields

/-- The type that scalar items are declared to have comes without a schema. -/
theorem ok_primitiveItems {path : String} {written : Value} {found : Items}
    (h : primitiveItems path written = .ok found) :
    found.1 = none ∧ found.2.any Kind.isPrimitive = true := by
  obtain ⟨k, -, h⟩ := except_bind.mp h
  split at h
  · obtain rfl := Except.ok.inj h
    exact ⟨rfl, ‹_›⟩
  · cases h

theorem yields {P : Property → Prop}
    (hP : ∀ scope wraps v p, property scope wraps v = .ok p → P p) (v : Value) : Yields P v := by
  induction v with
  | array xs ih =>
    constructor
    · intro scope wraps ps h p hp
      obtain ⟨ds, heq, -, hds⟩ := ok_propertyList h
      obtain rfl := Value.array.inj heq
      obtain ⟨d, hd, hproperty⟩ := Lists.exists_left hds hp
      exact (ih d hd).property hproperty
    · intro scope wraps p h
      cases h
    · intro path wraps found h
      cases h
  | object es ih =>
    constructor
    · intro scope wraps ps h
      cases h
    · intro scope wraps p h
      obtain ⟨fs, heq, hdeclares⟩ := ok_property h
      obtain rfl := Value.object.inj heq
      refine .mk (hP _ _ _ _ h) ?_
      intro c hc
      cases he : p.element with
      | none =>
        rw [Property.children, he] at hc
        cases hc
      | some s =>
        rw [Property.children_of_element he] at hc
        exact parts_yields ih hdeclares.parts s he c hc
    · exact items_yields ih
  | string s =>
    constructor
    · intro scope wraps ps h
      cases h
    · intro scope wraps p h
      cases h
    · intro path wraps found h s hs
      rw [(ok_primitiveItems h).1] at hs
      cases hs
  | _ =>
    constructor
    · intro scope wraps ps h
      cases h
    · intro scope wraps p h
      cases h
    · intro path wraps found h
      cases h

/-- What holds of every property that is read from a declaration holds throughout a schema. -/
theorem reaches_of_schema {P : Property → Prop}
    (hP : ∀ scope wraps v p, property scope wraps v = .ok p → P p) {v : Value} {s : Schema}
    (h : schema v = .ok s) {p : Property} (hp : s.Reaches p) : p.Throughout P := by
  refine hp.throughout ?_
  cases v with
  | object es => exact assembled_yields (fun e _ => yields hP e.2) h
  | _ => cases h

/-! ## Declared properties can be merged -/

/-- No spelling stands for an unknown kind. -/
theorem known_of_kind {path : String} {v : Value} {k : Kind} (h : kind path v = .ok k)
    (name : String) : k ≠ .other name := by
  intro hk
  subst hk
  cases v with
  | string written =>
    rw [kind] at h
    split at h
    · rename_i hlookup
      obtain rfl := Except.ok.inj h
      obtain ⟨before, after, hnames, -⟩ := List.lookup_eq_some_iff.mp hlookup
      have hmem : (Text.lower (Text.trim written), Kind.other name) ∈ kindNames := by
        rw [hnames]
        exact List.mem_append_right _ List.mem_cons_self
      simp [kindNames] at hmem
    · cases h
  | _ => cases h

/-- Declared items are either objects of a schema or scalars. -/
theorem declared_of_items {path : String} {wraps : Bool} {v : Value} {found : Items}
    (h : items path wraps v = .ok found) :
    found.1.isSome = true ∧ found.2 = none ∨
      found.1 = none ∧ found.2.any Kind.isPrimitive = true := by
  induction v with
  | string s => exact .inr (ok_primitiveItems h)
  | object es ih =>
    rw [items] at h
    split at h
    · obtain ⟨nested, -, h⟩ := except_bind.mp h
      obtain rfl := Except.ok.inj h
      exact .inl ⟨rfl, rfl⟩
    · obtain ⟨v, hv, hitems⟩ := ok_typeEntry.mp h
      exact ih _ (Entries.mem_of_get? hv) hitems
  | _ => cases h

namespace Declares

variable {scope : String} {wraps : Bool} {es : Entries Value} {p : Property}

theorem of_object (h : Declares scope wraps es p) (hk : p.kind = .object) :
    p.element.isSome = true ∧ p.itemKind = none := by
  have hparts := h.parts
  rw [hk] at hparts
  obtain ⟨nested, -, hfound⟩ := except_bind.mp hparts
  obtain ⟨helement, hitem⟩ := Prod.mk.inj (Except.ok.inj hfound)
  rw [← helement, ← hitem]
  exact ⟨rfl, rfl⟩

theorem of_collection (h : Declares scope wraps es p) (hk : p.kind.isCollection = true) :
    p.element.isSome = true ∧ p.itemKind = none ∨
      p.element = none ∧ p.itemKind.any Kind.isPrimitive = true := by
  have hitems (h : itemsEntry (label scope p.name) wraps es = .ok (p.element, p.itemKind)) :
      p.element.isSome = true ∧ p.itemKind = none ∨
        p.element = none ∧ p.itemKind.any Kind.isPrimitive = true := by
    obtain ⟨v, -, hitems⟩ := ok_itemsEntry.mp h
    exact declared_of_items hitems
  have hparts := h.parts
  cases hkind : p.kind with
  | list => exact hitems (by rw [hkind] at hparts; exact hparts)
  | set => exact hitems (by rw [hkind] at hparts; exact hparts)
  | _ => rw [hkind] at hk; cases hk

end Declares

theorem mergeable_of_property {scope : String} {wraps : Bool} {v : Value} {p : Property}
    (h : property scope wraps v = .ok p) : p.Mergeable := by
  obtain ⟨es, rfl, hdeclares⟩ := ok_property h
  refine ⟨known_of_kind hdeclares.kind, ?_, ?_⟩
  · intro hk
    exact (hdeclares.of_object hk).1
  · intro hk
    exact (hdeclares.of_collection hk).imp And.left And.right

end Declaration

end Reconciliation
