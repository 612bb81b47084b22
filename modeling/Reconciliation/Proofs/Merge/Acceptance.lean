import Reconciliation.Merge.Coercion
import Reconciliation.Merge.Error
import Reconciliation.Proofs.Schema.Declaration

/-! # Which remote values a merge accepts

A remote value is looked through from the outside in, children in the order of their declaration and
elements in the order of the array. It is accepted if no place in it is at fault; what is stored does
not come into it.
-/
namespace Reconciliation

open Merge

/-! ## What is accepted -/

namespace Value

def IsObject (v : Value) : Prop := v = .null ∨ (∃ es, v = .object es) ∨ ∃ es, v = .array [.object es]

def IsArray (v : Value) : Prop := v = .null ∨ ∃ xs, v = .array xs

end Value

theorem Kind.not_isPrimitive {kind : Kind} (h : kind.isCollection = true) :
    ¬kind.isPrimitive = true := by
  cases kind <;> first | exact Bool.false_ne_true | cases h

/-- The values that a kind of scalars takes: null, its own scalars, finite numbers that are cut to
integers, and integers that can be rounded. -/
def Kind.accepts (kind : Kind) : Value → Bool
  | .null => true
  | .string _ => kind = .string
  | .bool _ => kind = .boolean
  | .int n => kind = .integer || (kind = .float && (Binary64.ofInt? n).isSome)
  | .float x => kind = .float || (kind = .integer && x.isFinite)
  | _ => false

namespace Property

inductive Accepts : Property → Value → Prop
  | writeOnly {p : Property} {v : Value} (hw : p.writeOnly = true) : Accepts p v
  | scalar {p : Property} {v : Value} (hk : p.kind.isPrimitive = true)
    (h : p.kind.accepts v = true) : Accepts p v
  | primitives {p : Property} {v : Value} (hk : p.isPrimitiveCollection = true) (hv : v.IsArray) :
    Accepts p v
  | object {p : Property} {v : Value} (hk : p.kind = .object) (hv : v.IsObject)
    (h : ∀ c ∈ p.children, Accepts c (Value.field v.entries c.name)) : Accepts p v
  | collection {p : Property} {v : Value} (hk : p.isObjectCollection = true) (hv : v.IsArray)
    (hx : ∀ x ∈ v.items, x.IsObject)
    (h : ∀ x ∈ v.items, ∀ c ∈ p.children, Accepts c (Value.field x.entries c.name)) : Accepts p v

end Property

/-! ## Places and their faults -/

namespace Merge

def objectFault? (property : String) (v : Value) : Option MergeError :=
  match v.unwrapped.shape with
  | .null | .object => none
  | shape => some (.notObject property shape)

def arrayFault? (property : String) (v : Value) : Option MergeError :=
  match v.shape with
  | .null | .array => none
  | shape => some (.notArray property shape)

def scalarFault? (property : String) (kind : Kind) (v : Value) : Option MergeError :=
  if kind.accepts v then none
  else match kind, v with
    | .float, .int _ => some .integerTooLarge
    | _, _ => some (.notScalar property kind v.typeName)

inductive Place
  | value (p : Property) (v : Value)
  | element (p : Property) (v : Value)

namespace Place

def property : Place → Property
  | value p _ => p
  | element p _ => p

/-- What is wrong at a place, leaving out what is inside. -/
def fault? : Place → Option MergeError
  | value p v =>
    if p.writeOnly then none
    else match p.kind with
      | .object => objectFault? p.name v
      | .list | .set => arrayFault? p.name v
      | kind => scalarFault? p.name kind v
  | element p v => objectFault? p.name v

end Place

end Merge

namespace Merge

theorem objectFault?_eq_none_iff {name : String} {v : Value} :
    objectFault? name v = none ↔ v.IsObject := by
  have hshape : objectFault? name v = none ↔ v.unwrapped.shape = .null ∨ v.unwrapped.shape = .object := by
    rw [objectFault?]
    cases v.unwrapped.shape <;> simp
  rw [hshape, Value.IsObject]
  unfold Value.unwrapped
  split
  · simp [Value.shape]
  · rename_i hsingle
    cases v <;> simp_all [Value.shape]

theorem arrayFault?_eq_none_iff {name : String} {v : Value} :
    arrayFault? name v = none ↔ v.IsArray := by
  cases v <;> simp [arrayFault?, Value.shape, Value.IsArray]

theorem scalarFault?_eq_none_iff {name : String} {kind : Kind} {v : Value} :
    scalarFault? name kind v = none ↔ kind.accepts v = true := by
  unfold scalarFault?
  by_cases h : kind.accepts v = true
  · rw [if_pos h]
    exact ⟨fun _ => h, fun _ => rfl⟩
  · rw [if_neg h]
    refine ⟨?_, fun haccepts => absurd haccepts h⟩
    intro hnone
    split at hnone <;> cases hnone

/-- A fault names the property of its place, but for an integer that no number is near. -/
theorem Place.property?_of_fault? {place : Place} {e : MergeError} (h : place.fault? = some e) :
    e.property? = some place.property.name ∨
      e = .integerTooLarge ∧ place.property.kind = .float := by
  have hobject {name : String} {v : Value} (h : objectFault? name v = some e) :
      e.property? = some name := by
    unfold objectFault? at h
    split at h <;> cases h
    rfl
  have harray {name : String} {v : Value} (h : arrayFault? name v = some e) :
      e.property? = some name := by
    unfold arrayFault? at h
    split at h <;> cases h
    rfl
  cases place with
  | element p v => exact .inl (hobject h)
  | value p v =>
    rw [Place.fault?] at h
    split at h
    · cases h
    split at h
    · exact .inl (hobject h)
    · exact .inl (harray h)
    · exact .inl (harray h)
    · unfold scalarFault? at h
      split at h
      · cases h
      split at h
      · cases h
        exact .inr ⟨rfl, ‹_›⟩
      · cases h
        exact .inl rfl

end Merge

namespace Property

mutual

/-- The places of a remote value that are looked at, each before those inside it. -/
def places (p : Property) (v : Value) : List Place :=
  match p with
  | ⟨_, kind, writeOnly, _, element, _, _, _, _⟩ => .value p v ::
    if writeOnly then []
    else match kind with
      | .object => elementPlaces element v.entries
      | .list | .set =>
        if element.isSome then
          v.items.flatMap fun x => .element p x :: elementPlaces element x.entries
        else []
      | _ => []
termination_by structural p

def elementPlaces (element : Option Schema) (es : Entries Value) : List Place :=
  match element with
  | none => []
  | some ⟨children, _⟩ => childPlaces children es
termination_by structural element

def childPlaces (children : List Property) (es : Entries Value) : List Place :=
  match children with
  | [] => []
  | c :: cs => places c (Value.field es c.name) ++ childPlaces cs es
termination_by structural children

end

theorem childPlaces_eq (cs : List Property) (es : Entries Value) :
    childPlaces cs es = cs.flatMap fun c => c.places (Value.field es c.name) := by
  induction cs with
  | nil => rfl
  | cons c cs ih => rw [childPlaces, ih, List.flatMap_cons]

theorem places_eq (p : Property) (v : Value) : p.places v = .value p v ::
    if p.writeOnly then []
    else match p.kind with
      | .object => p.children.flatMap fun c => c.places (Value.field v.entries c.name)
      | .list | .set =>
        if p.element.isSome then
          v.items.flatMap fun x =>
            .element p x :: p.children.flatMap fun c => c.places (Value.field x.entries c.name)
        else []
      | _ => [] := by
  have helement (e : Option Schema) (es : Entries Value) : elementPlaces e es =
      ((e.map Schema.properties).getD []).flatMap fun c => c.places (Value.field es c.name) := by
    cases e with
    | none => rfl
    | some s =>
      obtain ⟨cs, wraps⟩ := s
      rw [elementPlaces, childPlaces_eq]
      rfl
  obtain ⟨name, kind, writeOnly, ignoreOrder, element, itemKind, isIdentifier, preferred, key⟩ := p
  cases kind <;> simp only [places, helement, children]

def fault? (p : Property) (v : Value) : Option MergeError := (p.places v).findSome? Place.fault?

def childFault? (p : Property) (es : Entries Value) : Option MergeError :=
  p.children.findSome? fun c => c.fault? (Value.field es c.name)

def elementFault? (p : Property) (v : Value) : Option MergeError :=
  (objectFault? p.name v).or (p.childFault? v.entries)

theorem fault?_eq (p : Property) (v : Value) : p.fault? v = (Place.value p v).fault?.or
    (if p.writeOnly then none
    else match p.kind with
      | .object => p.childFault? v.entries
      | .list | .set => if p.element.isSome then v.items.findSome? p.elementFault? else none
      | _ => none) := by
  have helement (x : Value) : (Place.element p x ::
      p.children.flatMap fun c => c.places (Value.field x.entries c.name)).findSome? Place.fault? =
        p.elementFault? x := by
    rw [Lists.findSome?_cons_or, Lists.findSome?_flatMap]
    rfl
  have hitems : (v.items.flatMap fun x => Place.element p x ::
      p.children.flatMap fun c => c.places (Value.field x.entries c.name)).findSome? Place.fault? =
        v.items.findSome? p.elementFault? := by
    rw [Lists.findSome?_flatMap]
    exact Lists.findSome?_congr fun x _ => helement x
  rw [fault?, places_eq, Lists.findSome?_cons_or]
  congr 1
  split
  · rfl
  · split
    · exact Lists.findSome?_flatMap _ _ _
    · split
      · exact hitems
      · rfl
    · split
      · exact hitems
      · rfl
    · rfl

theorem fault?_null (p : Property) : p.fault? .null = none := by
  induction p with
  | step p ih =>
    rw [fault?_eq, Option.or_eq_none_iff, Place.fault?]
    constructor
    · split
      · rfl
      · split <;> rfl
    · split
      · rfl
      split
      · exact List.findSome?_eq_none_iff.mpr ih
      · split <;> rfl
      · split <;> rfl
      · rfl

theorem elementFault?_null (p : Property) : p.elementFault? .null = none := by
  rw [elementFault?, Option.or_eq_none_iff]
  refine ⟨rfl, List.findSome?_eq_none_iff.mpr ?_⟩
  intro c _
  exact fault?_null c

/-! ## Accepted values are those without fault -/

def AcceptsFaultless (p : Property) : Prop := ∀ v, p.fault? v = none ↔ p.Accepts v

theorem Accepts.of_isCollection {p : Property} {v : Value} (h : p.Accepts v)
    (hw : ¬p.writeOnly = true) (hk : p.kind.isCollection = true) :
    v.IsArray ∧ (p.element.isSome = true → ∀ x ∈ v.items,
      x.IsObject ∧ ∀ c ∈ p.children, c.Accepts (Value.field x.entries c.name)) := by
  cases h with
  | writeOnly hw' => exact absurd hw' hw
  | scalar hk' => exact absurd hk' (Kind.not_isPrimitive hk)
  | object hk' => rw [hk'] at hk; cases hk
  | primitives hk' hv =>
    refine ⟨hv, ?_⟩
    intro he
    rw [isPrimitiveCollection, Bool.and_eq_true, Bool.and_eq_true] at hk'
    rw [Option.isNone_iff_eq_none.mp hk'.1.2] at he
    cases he
  | collection _ hv hx h =>
    refine ⟨hv, ?_⟩
    intro _ x hmem
    exact ⟨hx x hmem, h x hmem⟩

theorem Accepts.of_isPrimitive {p : Property} {v : Value} (h : p.Accepts v)
    (hw : ¬p.writeOnly = true) (hk : p.kind.isPrimitive = true) : p.kind.accepts v = true := by
  cases h with
  | writeOnly hw' => exact absurd hw' hw
  | scalar _ h => exact h
  | primitives hk' =>
    rw [isPrimitiveCollection, Bool.and_eq_true, Bool.and_eq_true] at hk'
    exact absurd hk (Kind.not_isPrimitive hk'.1.1)
  | object hk' => rw [hk'] at hk; cases hk
  | collection hk' =>
    rw [isObjectCollection, Bool.and_eq_true] at hk'
    exact absurd hk (Kind.not_isPrimitive hk'.1)

section Children

variable {p : Property} (ih : ∀ c ∈ p.children, c.AcceptsFaultless)
include ih

theorem childFault?_eq_none_iff {es : Entries Value} :
    p.childFault? es = none ↔ ∀ c ∈ p.children, c.Accepts (Value.field es c.name) := by
  rw [childFault?, List.findSome?_eq_none_iff]
  exact forall₂_congr fun c hc => ih c hc _

theorem elementFault?_eq_none_iff {v : Value} :
    p.elementFault? v = none ↔
      v.IsObject ∧ ∀ c ∈ p.children, c.Accepts (Value.field v.entries c.name) := by
  rw [elementFault?, Option.or_eq_none_iff, objectFault?_eq_none_iff, childFault?_eq_none_iff ih]

theorem collectionFault?_eq_none_iff (hp : p.Mergeable) (hw : ¬p.writeOnly = true)
    (hk : p.kind.isCollection = true) {v : Value} :
    (arrayFault? p.name v).or
      (if p.element.isSome then v.items.findSome? p.elementFault? else none) = none ↔
        p.Accepts v := by
  rw [Option.or_eq_none_iff, arrayFault?_eq_none_iff]
  by_cases he : p.element.isSome = true
  · rw [if_pos he, List.findSome?_eq_none_iff]
    constructor
    · intro ⟨hv, hfaults⟩
      have hobjects : p.isObjectCollection = true := by rw [isObjectCollection, hk, he]; rfl
      refine .collection hobjects hv ?_ ?_
      · intro x hx
        exact ((elementFault?_eq_none_iff ih).mp (hfaults x hx)).1
      · intro x hx
        exact ((elementFault?_eq_none_iff ih).mp (hfaults x hx)).2
    · intro haccepts
      obtain ⟨hv, hx⟩ := haccepts.of_isCollection hw hk
      refine ⟨hv, ?_⟩
      intro x hmem
      exact (elementFault?_eq_none_iff ih).mpr (hx he x hmem)
  · rw [if_neg he]
    constructor
    · intro ⟨hv, _⟩
      have hscalars := (hp.collection hk).resolve_left he
      refine .primitives ?_ hv
      rw [isPrimitiveCollection, hk, hscalars, Option.not_isSome_iff_eq_none.mp he]
      rfl
    · intro haccepts
      exact ⟨(haccepts.of_isCollection hw hk).1, rfl⟩

theorem objectFault?_or_eq_none_iff (hw : ¬p.writeOnly = true) (hk : p.kind = .object)
    {v : Value} :
    (objectFault? p.name v).or (p.childFault? v.entries) = none ↔ p.Accepts v := by
  rw [Option.or_eq_none_iff, objectFault?_eq_none_iff, childFault?_eq_none_iff ih]
  constructor
  · intro ⟨hv, h⟩
    exact .object hk hv h
  · intro haccepts
    cases haccepts with
    | writeOnly hw' => exact absurd hw' hw
    | scalar hk' => rw [hk] at hk'; cases hk'
    | primitives hk' => rw [isPrimitiveCollection, hk] at hk'; cases hk'
    | object _ hv h => exact ⟨hv, h⟩
    | collection hk' => rw [isObjectCollection, hk] at hk'; cases hk'

end Children

theorem fault?_eq_none_iff {p : Property} (hp : p.Throughout Mergeable) : p.AcceptsFaultless := by
  induction p with
  | step p ih =>
    have ih : ∀ c ∈ p.children, c.AcceptsFaultless := fun c hc => ih c hc (hp.children hc)
    intro v
    rw [fault?_eq, Place.fault?]
    by_cases hw : p.writeOnly = true
    · rw [if_pos hw, if_pos hw]
      exact ⟨fun _ => .writeOnly hw, fun _ => rfl⟩
    have hscalar (hk : p.kind.isPrimitive = true) :
        (scalarFault? p.name p.kind v).or none = none ↔ p.Accepts v := by
      rw [Option.or_none, scalarFault?_eq_none_iff]
      exact ⟨.scalar hk, fun h => h.of_isPrimitive hw hk⟩
    rw [if_neg hw, if_neg hw]
    cases hk : p.kind with
    | object => exact objectFault?_or_eq_none_iff ih hw hk
    | list => exact collectionFault?_eq_none_iff ih hp.own hw (by rw [hk]; rfl)
    | set => exact collectionFault?_eq_none_iff ih hp.own hw (by rw [hk]; rfl)
    | other name => exact absurd hk (hp.own.known name)
    | _ =>
      rw [hk] at hscalar
      exact hscalar rfl

end Property

end Reconciliation
