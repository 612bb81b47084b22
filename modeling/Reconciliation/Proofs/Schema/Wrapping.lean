import Reconciliation.Proofs.Schema.Declaration

/-! # Where the wrapping of a nested schema is declared

A schema inside a schema is found by the names of the properties on the way to it, and so is the
mapping that declares it. Whether its objects are wrapped is said by the nearest of the mappings
around it that says anything, itself included.
-/
namespace Reconciliation

def Schema.nested? (s : Schema) : List String → Option Schema
  | [] => some s
  | name :: names => (s.find? name).bind fun p => p.element.bind fun n => n.nested? names

theorem Schema.nested?_cons {s n : Schema} {name : String} {names : List String}
    (h : s.nested? (name :: names) = some n) :
    ∃ p m, s.find? name = some p ∧ p.element = some m ∧ m.nested? names = some n := by
  obtain ⟨p, hp, h⟩ := Option.bind_eq_some_iff.mp h
  obtain ⟨m, hm, h⟩ := Option.bind_eq_some_iff.mp h
  exact ⟨p, m, hp, hm, h⟩

/-- One more name leads to the schema inside the property with that name. -/
theorem Schema.nested?_concat {s n : Schema} {p : Property} {names : List String}
    (h : s.nested? names = some n) (hp : n.find? p.name = some p) :
    s.nested? (names ++ [p.name]) = p.element := by
  induction names generalizing s with
  | nil =>
    obtain rfl := Option.some.inj h
    rw [List.nil_append, nested?, hp, Option.bind_some]
    cases p.element <;> rfl
  | cons name names ih =>
    obtain ⟨q, k, hq, hk, h⟩ := nested?_cons h
    rw [List.cons_append, nested?, hq, Option.bind_some, hk]
    exact ih h

namespace Declaration

open Traced (except_bind)

/-! ## The mappings of a declaration -/

mutual

/-- The mapping that lists the properties of items: the declaration of the items, or the one that
stands there as their type. -/
def itemsMapping? (v : Value) : Option (Entries Value) :=
  match v with
  | .object es => if Entries.has es "properties" then some es else typeMapping? es
  | _ => none
termination_by structural v

def typeMapping? (es : List (String × Value)) : Option (Entries Value) :=
  match es with
  | [] => none
  | (k, v) :: es => if k = "type" then itemsMapping? v else typeMapping? es
termination_by structural es

end

theorem typeMapping?_eq (es : Entries Value) :
    typeMapping? es = (es.get? "type").elim none itemsMapping? :=
  Entries.search_eq_elim (by rw [typeMapping?]) (fun _ _ _ => by rw [typeMapping?]) es

/-- The mapping that lists the properties inside a property: its own declaration if it is an object,
and what its items are declared by if it is a collection. -/
def contentMapping? (es : Entries Value) : Option (Entries Value) :=
  match kind "" (Value.field es "type") with
  | .ok .object => some es
  | .ok .list | .ok .set => (es.get? "items").bind itemsMapping?
  | _ => none

def named? (name : String) : Value → Option (Entries Value)
  | .object es => match Entries.get? es "name" with
    | some (.string written) => if written = name then some es else none
    | _ => none
  | _ => none

def declared? (es : Entries Value) (name : String) : Option (Entries Value) :=
  match es.get? "properties" with
  | some (.array declarations) => declarations.findSome? (named? name)
  | _ => none

/-- The mappings from the one that names lead to outwards, those in front of the first included. -/
def enclosing? (outer : List (Entries Value)) (es : Entries Value) :
    List String → Option (List (Entries Value))
  | [] => some (es :: outer)
  | name :: names => do
    let declaration ← declared? es name
    let inner ← contentMapping? declaration
    enclosing? (es :: outer) inner names

def wrap? (es : Entries Value) : Option Bool :=
  match es.get? "wrap_nested_objects" with
  | some (.bool b) => some b
  | _ => none

/-- What the first mapping that says anything says of the wrapping; objects are not wrapped if none
does. -/
def wrapsIn (mappings : List (Entries Value)) : Bool := (mappings.findSome? wrap?).getD false

theorem wrapsIn_cons (es : Entries Value) (outer : List (Entries Value)) :
    wrapsIn (es :: outer) = (wrap? es).getD (wrapsIn outer) := by
  rw [wrapsIn, Lists.findSome?_cons_or, wrapsIn]
  cases wrap? es <;> rfl

/-! ## From schemas to mappings -/

theorem wrapping_eq {scope : String} {inherited wraps : Bool} {es : Entries Value}
    (h : wrapping scope inherited es = .ok wraps) : wraps = (wrap? es).getD inherited := by
  unfold wrapping at h
  rw [wrap?]
  split at h
  · rename_i hnone
    rw [hnone, Except.ok.inj h]
    rfl
  · rename_i hsome
    rw [hsome, Except.ok.inj h]
    rfl
  · cases h

theorem kind_of_kind {path : String} {v : Value} {k : Kind} (h : kind path v = .ok k)
    (path' : String) : kind path' v = .ok k := by
  cases v with
  | string written =>
    rw [kind] at h ⊢
    split at h
    · exact h
    · cases h
  | _ => cases h

theorem name_of_ok {scope name : String} {es : Entries Value}
    (h : Declaration.name scope es = .ok name) :
    es.get? "name" = some (.string name) ∧ Text.blank name = false := by
  unfold Declaration.name at h
  split at h
  · cases h
  · rename_i written hname
    split at h
    · cases h
    · rename_i hblank
      obtain rfl := Except.ok.inj h
      exact ⟨hname, eq_false_of_ne_true hblank⟩
  · cases h

/-- The schema that a mapping declares inside another, whose wrapping it may take over. -/
def Assembles (inherited : Bool) (es : Entries Value) (s : Schema) : Prop :=
  ∃ scope, assembled scope inherited es (fun wraps => propertiesEntry scope wraps es) = .ok s

theorem assembles_of_items {path : String} {wraps : Bool} {v : Value} {found : Items}
    (h : items path wraps v = .ok found) {n : Schema} (hn : found.1 = some n) :
    ∃ es, itemsMapping? v = some es ∧ Assembles wraps es n := by
  induction v with
  | string s =>
    rw [(ok_primitiveItems h).1] at hn
    cases hn
  | object es ih =>
    rw [items] at h
    rw [itemsMapping?]
    by_cases hes : Entries.has es "properties" = true
    · rw [if_pos hes] at h ⊢
      obtain ⟨nested, hnested, h⟩ := except_bind.mp h
      obtain rfl := Except.ok.inj h
      obtain rfl := Option.some.inj hn
      exact ⟨es, rfl, _, hnested⟩
    · rw [if_neg hes] at h ⊢
      obtain ⟨v, hv, hitems⟩ := ok_typeEntry.mp h
      rw [typeMapping?_eq, hv]
      exact ih _ (Entries.mem_of_get? hv) hitems
  | _ => cases h

namespace Declares

variable {scope : String} {wraps : Bool} {es : Entries Value} {p : Property}

/-- The schema inside a property is declared by the mapping inside its declaration. -/
theorem assembles (h : Declares scope wraps es p) {n : Schema} (hn : p.element = some n) :
    ∃ inner, contentMapping? es = some inner ∧ Assembles wraps inner n := by
  have hparts := h.parts
  rw [contentMapping?, kind_of_kind h.kind ""]
  have hitems (h : itemsEntry (label scope p.name) wraps es = .ok (p.element, p.itemKind)) :
      ∃ inner, (es.get? "items").bind itemsMapping? = some inner ∧ Assembles wraps inner n := by
    obtain ⟨v, hv, hitems⟩ := ok_itemsEntry.mp h
    rw [hv]
    exact assembles_of_items hitems hn
  cases hk : p.kind with
  | object =>
    rw [hk] at hparts
    obtain ⟨nested, hnested, hfound⟩ := except_bind.mp hparts
    obtain ⟨helement, -⟩ := Prod.mk.inj (Except.ok.inj hfound)
    obtain rfl := Option.some.inj (helement.trans hn)
    exact ⟨es, rfl, _, hnested⟩
  | list => exact hitems (by rw [hk] at hparts; exact hparts)
  | set => exact hitems (by rw [hk] at hparts; exact hparts)
  | _ =>
    rw [hk] at hparts
    obtain ⟨helement, -⟩ := Prod.mk.inj (Except.ok.inj hparts)
    rw [hn] at helement
    cases helement

theorem named? (h : Declares scope wraps es p) (name : String) :
    named? name (.object es) = if p.name = name then some es else none := by
  rw [Declaration.named?, (name_of_ok h.name).1]

end Declares

theorem findSome?_named? {scope : String} {wraps : Bool} {ds : List Value} {ps : List Property}
    (h : List.Forall₂ (fun d p => property scope wraps d = .ok p) ds ps) {name : String}
    {p : Property} (hp : ps.find? (fun p => p.name == name) = some p) :
    ∃ d, ds.findSome? (named? name) = some d ∧ Declares scope wraps d p := by
  induction h with
  | nil => cases hp
  | @cons d q ds ps hd _ ih =>
    obtain ⟨e, rfl, hdeclares⟩ := ok_property hd
    rw [Lists.findSome?_cons_or, hdeclares.named? name]
    by_cases hq : q.name = name
    · rw [List.find?_cons_of_pos (by simpa using hq)] at hp
      obtain rfl := Option.some.inj hp
      rw [if_pos hq]
      exact ⟨e, rfl, hdeclares⟩
    · rw [List.find?_cons_of_neg (by simpa using hq)] at hp
      rw [if_neg hq, Option.none_or]
      exact ih hp

theorem declared?_of_find? {scope : String} {inherited : Bool} {es : Entries Value} {s : Schema}
    (h : assembled scope inherited es (fun wraps => propertiesEntry scope wraps es) = .ok s)
    {name : String} {p : Property} (hp : s.find? name = some p) :
    ∃ d, declared? es name = some d ∧ Declares scope s.wraps d p := by
  obtain ⟨-, hlisted, -⟩ := ok_assembled h
  obtain ⟨v, hv, hlist⟩ := ok_propertiesEntry.mp hlisted
  obtain ⟨ds, rfl, -, hds⟩ := ok_propertyList hlist
  rw [declared?, hv]
  exact findSome?_named? hds hp

/-- The schema that names lead to is declared by the mapping that they lead to, and wraps as the
mappings around it say. -/
theorem assembles_nested {outer : List (Entries Value)} {es : Entries Value} {s n : Schema}
    (h : Assembles (wrapsIn outer) es s) {names : List String} (hn : s.nested? names = some n) :
    ∃ inner around, enclosing? outer es names = some (inner :: around) ∧
      Assembles (wrapsIn around) inner n := by
  induction names generalizing outer es s with
  | nil =>
    obtain rfl := Option.some.inj hn
    exact ⟨es, outer, rfl, h⟩
  | cons name names ih =>
    obtain ⟨scope, h⟩ := h
    obtain ⟨p, m, hp, hm, hn⟩ := Schema.nested?_cons hn
    obtain ⟨d, hd, hdeclares⟩ := declared?_of_find? h hp
    obtain ⟨inner, hinner, hassembles⟩ := hdeclares.assembles hm
    rw [wrapping_eq (ok_assembled h).1, ← wrapsIn_cons] at hassembles
    obtain ⟨innermost, around, henclosing, hn⟩ := ih hassembles hn
    refine ⟨innermost, around, ?_, hn⟩
    rw [enclosing?, hd, Option.bind_eq_bind, Option.bind_some, hinner]
    exact henclosing

theorem Assembles.wraps {outer : List (Entries Value)} {es : Entries Value} {s : Schema}
    (h : Assembles (wrapsIn outer) es s) : s.wraps = wrapsIn (es :: outer) := by
  obtain ⟨scope, h⟩ := h
  rw [wrapping_eq (ok_assembled h).1, wrapsIn_cons]

end Declaration

end Reconciliation
