import Reconciliation.Proofs.Schema.Declaration
import Reconciliation.Schema.Reader

/-! # Schemas whose text holds a scalar that stands for nothing

What a declaration may lack is told by the errors of its own. Only the text can have a scalar that
stands for nothing, and then there is no declaration.
-/
namespace Reconciliation

def SchemaError.Declared (e : SchemaError) : Prop := ∀ f, e ≠ .invalidScalar f

namespace Declaration

open SchemaError (Declared)
open Traced (Errors)

theorem errors_kind (path : String) (v : Value) : Errors Declared (kind path v) := by
  unfold kind
  split
  · split
    · exact .ok _
    · exact .error nofun
  · exact .error nofun

theorem errors_flag (path key : String) (es : Entries Value) :
    Errors Declared (flag path key es) := by
  unfold flag
  split
  · exact .ok _
  · exact .ok _
  · exact .error nofun

theorem errors_wrapping (scope : String) (inherited : Bool) (es : Entries Value) :
    Errors Declared (wrapping scope inherited es) := by
  unfold wrapping
  split
  · exact .ok _
  · exact .ok _
  · exact .error nofun

theorem errors_keyEntry (path : String) (v : Value) : Errors Declared (keyEntry path v) := by
  unfold keyEntry
  split
  · split
    · exact .error nofun
    · exact .ok _
  · exact .error nofun

theorem errors_correlationKey (path : String) (v : Value) :
    Errors Declared (correlationKey path v) := by
  unfold correlationKey
  split
  · exact .ok _
  · exact .mapM fun v _ => errors_keyEntry path v
  · exact (errors_keyEntry path _).bind fun _ => .ok _
  · exact .error nofun

theorem errors_preferredName (path : String) (v : Value) :
    Errors Declared (preferredName path v) := by
  unfold preferredName
  split
  · exact .ok _
  · exact .ok _
  · exact .error nofun

theorem errors_name (scope : String) (es : Entries Value) :
    Errors Declared (Declaration.name scope es) := by
  unfold Declaration.name
  split
  · exact .error nofun
  · split
    · exact .error nofun
    · exact .ok _
  · exact .error nofun

theorem errors_primitiveItems (path : String) (v : Value) :
    Errors Declared (primitiveItems path v) := by
  apply (errors_kind _ v).bind
  intro k
  split
  · exact .ok _
  · exact .error nofun

theorem errors_assembled {scope : String} {inherited : Bool} {es : Entries Value}
    {listed : Bool → Except SchemaError (List Property)}
    (h : ∀ wraps, Errors Declared (listed wraps)) :
    Errors Declared (assembled scope inherited es listed) := by
  apply (errors_wrapping scope inherited es).bind
  intro wraps
  apply (h wraps).bind
  intro ps
  unfold Schema.ofProperties
  split
  · exact .error nofun
  · exact .ok _

theorem errors_completed (path name : String) (kind : Kind) (es : Entries Value) (found : Items) :
    Errors Declared (completed path name kind es found) := by
  apply (errors_correlationKey path _).bind
  intro key
  split
  · exact .error nofun
  · apply (errors_flag path _ es).bind
    intro writeOnly
    apply (errors_flag path _ es).bind
    intro ignoreOrder
    apply (errors_flag path _ es).bind
    intro isIdentifier
    exact (errors_preferredName path _).bind fun _ => .ok _

structure ErrorsDeclared (v : Value) : Prop where
  list : ∀ scope wraps, Errors Declared (propertyList scope wraps v)
  property : ∀ scope wraps, Errors Declared (property scope wraps v)
  items : ∀ path wraps, Errors Declared (items path wraps v)

section Entries

variable {es : Entries Value} (ih : ∀ e ∈ es, ErrorsDeclared e.2)
include ih

theorem errors_propertiesEntry (scope : String) (wraps : Bool) :
    Errors Declared (propertiesEntry scope wraps es) := by
  rw [propertiesEntry_eq]
  exact .elim nofun fun v hv => (ih _ (Entries.mem_of_get? hv)).list scope wraps

theorem errors_itemsEntry (path : String) (wraps : Bool) :
    Errors Declared (itemsEntry path wraps es) := by
  rw [itemsEntry_eq]
  exact .elim nofun fun v hv => (ih _ (Entries.mem_of_get? hv)).items path wraps

theorem errors_typeEntry (path : String) (wraps : Bool) :
    Errors Declared (typeEntry path wraps es) := by
  rw [typeEntry_eq]
  exact .elim nofun fun v hv => (ih _ (Entries.mem_of_get? hv)).items path wraps

theorem errors_parts (path : String) (wraps : Bool) (kind : Kind) :
    Errors Declared (parts path wraps es kind) := by
  unfold parts
  split
  · exact (errors_assembled fun wraps => errors_propertiesEntry ih path wraps).bind fun _ => .ok _
  · exact errors_itemsEntry ih path wraps
  · exact errors_itemsEntry ih path wraps
  · exact .ok _

end Entries

theorem errorsDeclared (v : Value) : ErrorsDeclared v := by
  induction v with
  | array xs ih =>
    refine ⟨?_, fun _ _ => .error nofun, fun _ _ => .error nofun⟩
    intro scope wraps
    cases xs with
    | nil => exact .error nofun
    | cons x xs =>
      change Errors Declared (properties scope wraps (x :: xs))
      rw [properties_eq]
      exact .mapM fun d hd => (ih d hd).property scope wraps
  | object es ih =>
    refine ⟨fun _ _ => .error nofun, ?_, ?_⟩
    · intro scope wraps
      rw [property_object]
      apply (errors_name scope es).bind
      intro name
      apply (errors_kind _ _).bind
      intro kind
      apply (errors_parts ih _ wraps kind).bind
      intro found
      exact errors_completed _ name kind es found
    · intro path wraps
      rw [items]
      split
      · exact (errors_assembled fun wraps => errors_propertiesEntry ih _ wraps).bind fun _ => .ok _
      · exact errors_typeEntry ih path wraps
  | string s =>
    refine ⟨fun _ _ => .error nofun, fun _ _ => .error nofun, ?_⟩
    intro path wraps
    exact errors_primitiveItems path _
  | _ => exact ⟨fun _ _ => .error nofun, fun _ _ => .error nofun, fun _ _ => .error nofun⟩

theorem errors_schema (v : Value) : Errors Declared (schema v) := by
  cases v with
  | object es =>
    exact errors_assembled fun wraps => errors_propertiesEntry (fun e _ => errorsDeclared e.2) "" wraps
  | _ => exact .error nofun

end Declaration

/-- A schema is without value because of a scalar exactly if its text is. -/
theorem Schema.read_invalidScalar_iff {text : String} {f : Yaml.Fault} :
    Schema.read text = .error (.invalidScalar f) ↔ Yaml.read? text = .error (.fault f) := by
  rw [Schema.read]
  cases hread : Yaml.read? text with
  | ok v =>
    constructor
    · intro h
      exact absurd rfl (Declaration.errors_schema v _ h f)
    · nofun
  | error e =>
    cases e with
    | malformed => exact ⟨nofun, nofun⟩
    | fault g => simp

end Reconciliation
