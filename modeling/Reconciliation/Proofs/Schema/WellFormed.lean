import Mathlib.Data.List.DropRight
import Reconciliation.Proofs.Merge.Failure
import Reconciliation.Proofs.Schema.Scalar
import Reconciliation.Proofs.Schema.Wrapping

/-! # Declared schemas are well formed

A declaration that is read gives a schema that is sound at every depth. A merge that follows such a
schema finds fault with what it is given, never with the schema.
-/
namespace Reconciliation

/-! ## Trimmed texts -/

namespace Text

theorem toList_trim (s : String) :
    (trim s).toList = List.rdropWhile isBlank (List.dropWhile isBlank s.toList) := by
  rw [trim, String.toList_ofList]
  rfl

/-- A text begins with white space only if what it is the beginning of does. -/
theorem dropWhile_of_prefix {xs ys : List Char} (h : xs <+: ys)
    (hys : ys.dropWhile isBlank = ys) : xs.dropWhile isBlank = xs := by
  rw [List.dropWhile_eq_self_iff] at hys ⊢
  intro hpos
  rw [h.getElem hpos]
  apply hys

@[simp] theorem trim_trim (s : String) : trim (trim s) = trim s := by
  have hstart : List.dropWhile isBlank (trim s).toList = (trim s).toList := by
    rw [toList_trim]
    exact dropWhile_of_prefix (List.rdropWhile_prefix _ _) (List.dropWhile_idempotent _ _)
  rw [← String.toList_inj, toList_trim, hstart, toList_trim, List.rdropWhile_idempotent]

theorem blank_trim {s : String} (h : blank s = false) : blank (trim s) = false := by
  by_contra hblank
  rw [Bool.not_eq_false, blank, toList_trim, List.all_eq_true, ← List.rdropWhile_eq_nil_iff,
    List.rdropWhile_idempotent, List.rdropWhile_eq_nil_iff, ← List.dropWhile_eq_nil_iff,
    List.dropWhile_idempotent, List.dropWhile_eq_nil_iff, ← List.all_eq_true] at hblank
  rw [blank, hblank] at h
  cases h

end Text

/-! ## Soundness -/

structure Property.Sound (p : Property) : Prop where
  name : Text.blank p.name = false
  known : ∀ name, p.kind ≠ .other name
  object : p.kind = .object → p.element.isSome = true ∧ p.itemKind = none
  collection : p.kind.isCollection = true →
    p.element.isSome = true ∧ p.itemKind = none ∨
      p.element = none ∧ p.itemKind.any Kind.isPrimitive = true
  scalar : p.kind.isPrimitive = true → p.element = none ∧ p.itemKind = none
  placed : p.correlationKey ≠ [] → p.kind = .set ∧ p.element.isSome = true
  fields : ∀ field ∈ p.correlationKey, Text.blank field = false ∧ Text.trim field = field

structure Schema.Sound (s : Schema) : Prop where
  nonempty : s.properties ≠ []
  distinct : s.propertyNames.Nodup
  properties : ∀ p ∈ s.properties, p.Sound

namespace Declaration

open Traced (except_bind)

theorem trimmed_of_keyEntry {path field : String} {v : Value} (h : keyEntry path v = .ok field) :
    Text.blank field = false ∧ Text.trim field = field := by
  cases v with
  | string s =>
    rw [keyEntry] at h
    split at h
    · cases h
    · rename_i hblank
      obtain rfl := Except.ok.inj h
      exact ⟨Text.blank_trim (eq_false_of_ne_true hblank), Text.trim_trim s⟩
  | _ => cases h

theorem trimmed_of_correlationKey {path : String} {v : Value} {fields : List String}
    (h : correlationKey path v = .ok fields) :
    ∀ field ∈ fields, Text.blank field = false ∧ Text.trim field = field := by
  intro field hfield
  cases v with
  | null =>
    obtain rfl := Except.ok.inj h
    cases hfield
  | array vs =>
    obtain ⟨v, -, hv⟩ := Lists.exists_left (Traced.except_mapM.mp h) hfield
    exact trimmed_of_keyEntry hv
  | string s =>
    obtain ⟨entry, hentry, h⟩ := except_bind.mp h
    obtain rfl := Except.ok.inj h
    rw [List.mem_singleton.mp hfield]
    exact trimmed_of_keyEntry hentry
  | _ => cases h

theorem Declares.sound {scope : String} {wraps : Bool} {es : Entries Value} {p : Property}
    (h : Declares scope wraps es p) : p.Sound where
  name := (name_of_ok h.name).2
  known := known_of_kind h.kind
  object := h.of_object
  collection := h.of_collection
  scalar hk := by
    have hparts := h.parts
    cases hkind : p.kind with
    | object => rw [hkind] at hk; cases hk
    | list => rw [hkind] at hk; cases hk
    | set => rw [hkind] at hk; cases hk
    | _ =>
      rw [hkind] at hparts
      obtain ⟨helement, hitem⟩ := Prod.mk.inj (Except.ok.inj hparts)
      exact ⟨helement.symm, hitem.symm⟩
  placed := h.placed
  fields := trimmed_of_correlationKey h.key

theorem Assembles.sound {inherited : Bool} {es : Entries Value} {s : Schema}
    (h : Assembles inherited es s) : s.Sound := by
  obtain ⟨scope, h⟩ := h
  obtain ⟨-, hlisted, hdistinct⟩ := ok_assembled h
  obtain ⟨v, -, hlist⟩ := ok_propertiesEntry.mp hlisted
  obtain ⟨ds, -, hne, hds⟩ := ok_propertyList hlist
  refine ⟨?_, hdistinct, ?_⟩
  · intro hnil
    rw [hnil] at hds
    exact hne (List.forall₂_nil_right_iff.mp hds)
  · intro p hp
    obtain ⟨d, -, hd⟩ := Lists.exists_left hds hp
    obtain ⟨e, -, hdeclares⟩ := ok_property hd
    exact hdeclares.sound

end Declaration

/-! ## Structural errors -/

/-- Errors of a merge whose schema is not what it should be. -/
def MergeError.isStructural : MergeError → Bool
  | .noElementSchema _ | .listOfUnknown _ | .setOfUnknown _ | .unsupportedKind _ _ => true
  | _ => false

theorem Merge.Place.isStructural_of_fault? {place : Merge.Place} {e : MergeError}
    (h : place.fault? = some e) : e.isStructural = false := by
  cases place.faulty_of_fault? h <;> rfl

/-- Where a property can be merged, no error of a merge is the schema's. -/
theorem Property.isStructural_of_coerce {p : Property} (hp : p.Throughout Mergeable)
    {remote stored : Value} {e : MergeError}
    (h : (Merge.coerce p remote stored).result = .error e) : e.isStructural = false := by
  rw [← Traced.error?_eq_some_iff, coerce_error? hp, fault?] at h
  obtain ⟨place, -, hplace⟩ := List.exists_of_findSome?_eq_some h
  exact place.isStructural_of_fault? hplace

namespace Declaration

theorem assembles_of_schema {v : Value} {s : Schema} (h : schema v = .ok s) :
    ∃ root, v = .object root ∧ Assembles (wrapsIn []) root s := by
  cases v with
  | object root => exact ⟨root, rfl, _, h⟩
  | _ => cases h

/-- Names lead to every property, and so to the schema inside it. -/
theorem nested_of_reaches {s : Schema} (hs : ∀ names n, s.nested? names = some n → n.Sound)
    {p : Property} (hp : s.Reaches p) : ∃ names n, s.nested? names = some n ∧
      p ∈ n.properties ∧ s.nested? (names ++ [p.name]) = p.element := by
  have hmember {names : List String} {n : Schema} (hn : s.nested? names = some n) {q : Property}
      (hq : q ∈ n.properties) : s.nested? (names ++ [q.name]) = q.element :=
    Schema.nested?_concat hn (Lists.find?_of_nodup (hs names n hn).distinct hq)
  induction hp with
  | top h => exact ⟨[], s, rfl, h, hmember rfl h⟩
  | @child p c _ hc ih =>
    obtain ⟨names, n, -, -, hnested⟩ := ih
    cases he : p.element with
    | none =>
      rw [Property.children, he] at hc
      cases hc
    | some m =>
      rw [Property.children_of_element he] at hc
      rw [he] at hnested
      exact ⟨names ++ [p.name], m, hnested, hc, hmember hnested hc⟩

/-- What a declaration that cannot be read lacks is told by an error of its own. A schema that is
read is sound at every depth. Its wrapping, and that of every schema inside it, is what the nearest
mapping of the declaration around it says. So no merge of any of its properties fails because of the
schema. -/
theorem schema_wellFormed (v : Value) :
    (∀ e, schema v = .error e → e.Declared) ∧
    ∀ s, schema v = .ok s →
      (∀ names n, s.nested? names = some n → n.Sound ∧ ∃ root inner around, v = .object root ∧
        enclosing? [] root names = some (inner :: around) ∧
        n.wraps = ((inner :: around).findSome? wrap?).getD false) ∧
      ∀ p, s.Reaches p →
        (∃ names n, s.nested? names = some n ∧ p ∈ n.properties ∧
          s.nested? (names ++ [p.name]) = p.element) ∧
        ∀ remote stored e, (Merge.coerce p remote stored).result = .error e →
          e.isStructural = false := by
  refine ⟨errors_schema v, ?_⟩
  intro s h
  obtain ⟨root, rfl, hroot⟩ := assembles_of_schema h
  have hnested : ∀ names n, s.nested? names = some n → n.Sound := by
    intro names n hn
    obtain ⟨inner, around, -, hinner⟩ := assembles_nested hroot hn
    exact hinner.sound
  refine ⟨?_, ?_⟩
  · intro names n hn
    obtain ⟨inner, around, henclosing, hinner⟩ := assembles_nested hroot hn
    exact ⟨hnested names n hn, root, inner, around, rfl, henclosing, hinner.wraps⟩
  · intro p hp
    refine ⟨nested_of_reaches hnested hp, ?_⟩
    intro remote stored e he
    have hmergeable : p.Throughout Property.Mergeable :=
      reaches_of_schema (fun _ _ _ _ => mergeable_of_property) h hp
    exact Property.isStructural_of_coerce hmergeable he

/-- The racks of a site, which wraps its objects. What the declaration of the racks says of wrapping
does not count, because it lists no properties itself. -/
def siteEntries : Entries Value :=
  [("properties", .array [.object [("name", .string "site"), ("type", .string " Object "),
    ("wrap_nested_objects", .bool true), ("properties", .array [
      .object [("name", .string "racks"), ("type", .string "set"),
        ("correlation_key", .string " label "), ("wrap_nested_objects", .bool false),
        ("items", .object [("type", .object [("properties", .array [
          .object [("name", .string "label"), ("type", .string "str")]])])])]])]])]

theorem siteEntries_wellFormed : ∃ s n, schema (.object siteEntries) = .ok s ∧
    s.nested? ["site", "racks"] = some n ∧ n.Sound ∧ n.wraps = true ∧
    ∀ p, s.Reaches p → ∀ remote stored e,
      (Merge.coerce p remote stored).result = .error e → e.isStructural = false := by
  obtain ⟨s, hs, hsome⟩ := Traced.ok_of_passes
    (show Traced.passes (fun s => (s.nested? ["site", "racks"]).isSome)
      (schema (.object siteEntries)) = true by decide +kernel)
  obtain ⟨n, hn⟩ := Option.isSome_iff_exists.mp hsome
  obtain ⟨-, hread⟩ := schema_wellFormed (.object siteEntries)
  obtain ⟨hnested, hmerges⟩ := hread s hs
  obtain ⟨hsound, root, inner, around, hroot, henclosing, hwraps⟩ := hnested _ n hn
  obtain rfl := Value.object.inj hroot
  have hdeclared : (enclosing? [] siteEntries ["site", "racks"]).map wrapsIn = some true := by
    decide +kernel
  rw [henclosing] at hdeclared
  refine ⟨s, n, hs, hn, hsound, ?_, ?_⟩
  · exact hwraps.trans (Option.some.inj hdeclared)
  · intro p hp
    exact (hmerges p hp).2

end Declaration

end Reconciliation
