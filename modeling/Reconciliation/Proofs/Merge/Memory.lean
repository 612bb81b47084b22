import Reconciliation.Proofs.Merge.Coercion
import Reconciliation.Proofs.Schema.Decision
import Reconciliation.Proofs.Value.Decision

/-! # What the merge reads of a stored value

The merge reads what is stored for write-only properties, and how many elements the lists of objects
have. Two stored values that differ nowhere on the way there are merged alike with every remote
value: with the same result or the same error, and the same events.
-/
namespace Reconciliation

open Merge

namespace Merge

theorem list_congr_stored {merge : Value → Value → Merged Value} {stored stored' : List Value}
    (h : List.Forall₂ (fun s s' => ∀ r, merge r s = merge r s') stored stored')
    (remote : List Value) : list merge remote stored = list merge remote stored' := by
  rw [list, list]
  apply Traced.mapM_congr
  have hremote : List.Forall₂ Eq remote remote := List.forall₂_same.mpr fun _ _ => rfl
  apply (forall₂_paired hremote h rfl fun _ => rfl).imp
  rintro ⟨r, s⟩ ⟨r', s'⟩ ⟨rfl, hs⟩
  exact hs r

theorem distinct_congr_stored {merge : Value → Value → Merged Value}
    (h : ∀ r s s', merge r s = merge r s') (name : String) (f g : Value → Value)
    (seen : List UInt32) (remote : List Value) :
    distinct name merge f seen remote = distinct name merge g seen remote := by
  induction remote generalizing seen with
  | nil => rfl
  | cons r rs ih =>
    rw [distinct, distinct, h r (f r) (g r)]
    simp only [ih]

end Merge

namespace Property

inductive StoredAlike : Property → Value → Value → Prop
  | same {p : Property} (v : Value) : StoredAlike p v v
  /-- Of scalars and of collections of scalars nothing stored is read. -/
  | scalars {p : Property} (hw : p.writeOnly = false) (hk : p.kind ≠ .object)
    (he : p.isObjectCollection = false) (v w : Value) : StoredAlike p v w
  | object {p : Property} {v w : Value} (hw : p.writeOnly = false) (hk : p.kind = .object)
    (h : ∀ c ∈ p.children, StoredAlike c (Value.field v.entries c.stateName)
      (Value.field w.entries c.stateName)) : StoredAlike p v w
  | list {p : Property} {v w : Value} (hw : p.writeOnly = false) (hk : p.kind = .list)
    (hl : v.items.length = w.items.length)
    (h : ∀ pair ∈ v.items.zip w.items, ∀ c ∈ p.children,
      StoredAlike c (Value.field pair.1.entries c.stateName)
        (Value.field pair.2.entries c.stateName)) : StoredAlike p v w
  /-- Elements of a set may meet any stored element, so nothing may be read of any. -/
  | set {p : Property} (hw : p.writeOnly = false) (hk : p.kind = .set)
    (h : ∀ c ∈ p.children, ∀ v w, StoredAlike c v w) (v w : Value) : StoredAlike p v w

def MergedWithAlike (merge : Value → Value → Merged Value) (stored stored' : Value) : Prop :=
  ∀ remote, merge remote stored = merge remote stored'

theorem mergeObject_congr_stored {p : Property} {v w : Value}
    (h : ∀ c ∈ p.children, MergedWithAlike (coerce c) (Value.field v.entries c.stateName)
      (Value.field w.entries c.stateName)) : MergedWithAlike p.mergeObject v w := by
  intro remote
  cases he : p.element with
  | none => rw [mergeObject_none he, mergeObject_none he]
  | some s =>
    rw [mergeObject_some he, mergeObject_some he]
    apply bind_congr
    intro r
    rw [mapM_mergeChild_congr fun c hc => h c hc _]

/-- Stored values that differ only where they are not read are merged alike. -/
theorem coerce_eq_of_storedAlike {p : Property} {v w : Value} (h : p.StoredAlike v w) :
    MergedWithAlike (coerce p) v w := by
  induction h with
  | same v =>
    intro remote
    rfl
  | @scalars p hw hk he v w =>
    intro remote
    rw [coerce_eq, coerce_eq, hw, if_neg Bool.false_ne_true, if_neg Bool.false_ne_true]
    split
    · exact absurd ‹_› hk
    · simp_all [isObjectCollection, Kind.isCollection]
    · simp_all [isObjectCollection, Kind.isCollection]
    · rfl
  | object hw hk _ ih =>
    intro remote
    rw [coerce_eq, coerce_eq, hw, hk]
    exact mergeObject_congr_stored ih remote
  | @list p v w hw hk hl _ ih =>
    intro remote
    have hitems : List.Forall₂ (MergedWithAlike p.mergeObject) v.items w.items :=
      List.forall₂_iff_zip.mpr ⟨hl, fun hpair => mergeObject_congr_stored (ih _ hpair)⟩
    rw [coerce_list hk hw, coerce_list hk hw, mergeList, mergeList]
    simp only [list_congr_stored hitems]
  | @set p hw hk _ v w ih =>
    intro remote
    have hobject (r s s' : Value) : p.mergeObject r s = p.mergeObject r s' :=
      mergeObject_congr_stored (fun c hc => ih c hc _ _) r
    have hset : p.mergeSet remote v = p.mergeSet remote w := by
      rw [mergeSet, mergeSet]
      simp only [set_eq]
      apply bind_congr
      intro rs
      rw [distinct_congr_stored hobject]
    rw [coerce_eq, coerce_eq, hw, if_neg Bool.false_ne_true, if_neg Bool.false_ne_true, hk]
    dsimp only
    rw [hset]

/-! ## Properties that read nothing stored -/

/-- There is no write-only property and no list of objects in what a property reaches. -/
def Stateless (p : Property) : Prop :=
  p.Throughout fun q => q.writeOnly = false ∧ ¬(q.kind = .list ∧ q.element.isSome = true)

instance : DecidablePred Stateless := fun p =>
  inferInstanceAs (Decidable (p.Throughout fun q =>
    q.writeOnly = false ∧ ¬(q.kind = .list ∧ q.element.isSome = true)))

theorem Stateless.storedAlike {p : Property} (hp : p.Stateless) (v w : Value) :
    p.StoredAlike v w := by
  induction p generalizing v w with
  | step p ih =>
    obtain ⟨hw, hlist⟩ := hp.own
    have hchildren : ∀ c ∈ p.children, ∀ v w, c.StoredAlike v w := by
      intro c hc v w
      exact ih c hc (hp.children hc) v w
    by_cases hobject : p.kind = .object
    · apply StoredAlike.object hw hobject
      intro c hc
      exact hchildren c hc _ _
    by_cases hset : p.kind = .set
    · exact .set hw hset hchildren v w
    apply StoredAlike.scalars hw hobject
    cases hk : p.kind <;> simp_all [isObjectCollection, Kind.isCollection]

/-- Where there is no write-only property and no list of objects, prior state does not matter: every
remote value is merged with the same outcome, whatever is stored. -/
theorem coerce_stateless {p : Property} (hp : p.Stateless) (remote stored stored' : Value) :
    coerce p remote stored = coerce p remote stored' :=
  coerce_eq_of_storedAlike (hp.storedAlike stored stored') remote

/-- Groups told apart by their names, each with a wrapped object and a set of its own. -/
def sampleGroups : Property :=
  { name := "groups", kind := .set, correlationKey := ["groupName"]
    element := some ⟨[{ name := "groupName", kind := .string },
      { name := "limits", kind := .object
        element := some ⟨[{ name := "maxSize", kind := .integer }], true⟩ },
      { name := "members", kind := .set
        element := some ⟨[{ name := "userName", kind := .string }], false⟩ }], true⟩ }

/-- The second group differs from the first one only where the schema does not look, so it is skipped
as a duplicate. -/
def sentGroups : Value :=
  .array [
    .object [("groupName", .string "g"), ("limits", .object [("maxSize", .int 3)]),
      ("members", .array [.object [("userName", .string "u")], .object [("userName", .string "u")]])],
    .object [("groupName", .string "g"), ("limits", .array [.object [("maxSize", .int 3)]]),
      ("members", .array [.object [("seen", .int 1), ("userName", .string "u")]])]]

def mergedGroups : Value :=
  .array [.object [("group_name", .string "g"),
    ("limits", .array [.object [("max_size", .int 3)]]),
    ("members", .array [.object [("user_name", .string "u")]])]]

/-- A text is stored in place of the groups, or a group of the same name that does not conform. -/
theorem coerce_sampleGroups :
    (coerce sampleGroups sentGroups (.string "odd")).result = .ok mergedGroups ∧
      coerce sampleGroups sentGroups (.array [.object [("group_name", .string "g"),
        ("limits", .int 4), ("members", .array [.object [("userName", .string "u"),
          ("user_name", .string "w")]])]]) = coerce sampleGroups sentGroups (.string "odd") :=
  ⟨by decide +kernel, coerce_stateless (by decide +kernel) _ _ _⟩

end Property

end Reconciliation
