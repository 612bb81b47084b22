import Reconciliation.Proofs.Merge.Coercion

/-! # What the merge reads of a remote value

The merge reads the declared fields that are not write-only, at any depth. Two remote values that
agree there are merged alike with every stored value, or fail alike: the elements of a set meet by
their key fields, and those are read too.
-/
namespace Reconciliation

open Merge
open Traced (Related)

namespace Property

/-- A set of objects has a correlation key, made of scalar children that are not write-only. -/
def KeyedSet (p : Property) : Prop :=
  p.kind = .set → p.element.isSome = true → p.correlationKey ≠ [] ∧
    ∀ field ∈ p.correlationKey,
      ∃ c ∈ p.children, c.name = field ∧ c.writeOnly = false ∧ c.kind.isPrimitive = true

mutual

/-- Two remote values differ at most where a property does not read them. -/
inductive Agree : Property → Value → Value → Prop
  | same {p : Property} (v : Value) : Agree p v v
  | writeOnly {p : Property} (h : p.writeOnly = true) (v w : Value) : Agree p v w
  | object {p : Property} {es fs : Entries Value} (hk : p.kind = .object)
    (h : ∀ c ∈ p.children, Agree c (Value.field es c.name) (Value.field fs c.name)) :
    Agree p (.object es) (.object fs)
  | collection {p : Property} {xs ys : List Value} (hk : p.isObjectCollection = true)
    (hl : xs.length = ys.length) (h : ∀ pair ∈ xs.zip ys, AgreeElement p pair.1 pair.2) :
    Agree p (.array xs) (.array ys)

inductive AgreeElement : Property → Value → Value → Prop
  | null {p : Property} : AgreeElement p .null .null
  | object {p : Property} {es fs : Entries Value}
    (h : ∀ c ∈ p.children, Agree c (Value.field es c.name) (Value.field fs c.name)) :
    AgreeElement p (.object es) (.object fs)

end

theorem Agree.eq_of_isPrimitive {p : Property} {v w : Value} (h : Agree p v w)
    (hw : p.writeOnly = false) (hk : p.kind.isPrimitive = true) : v = w := by
  cases h with
  | same => rfl
  | writeOnly h =>
    rw [hw] at h
    cases h
  | object hobject =>
    rw [hobject] at hk
    cases hk
  | collection hcollection =>
    rw [isObjectCollection, Bool.and_eq_true] at hcollection
    cases hkind : p.kind <;> rw [hkind] at hk hcollection <;> simp_all [Kind.isPrimitive,
      Kind.isCollection]

def MergesAgreeing (p : Property) : Prop :=
  ∀ remote remote' stored, Agree p remote remote' →
    coerce p remote stored = coerce p remote' stored

section Elements

variable {p : Property} (ih : ∀ c ∈ p.children, c.MergesAgreeing)
include ih

theorem mergeObject_eq_of_agree {es fs : Entries Value}
    (h : ∀ c ∈ p.children, Agree c (Value.field es c.name) (Value.field fs c.name))
    (stored : Value) : p.mergeObject (.object es) stored = p.mergeObject (.object fs) stored := by
  have hchildren : p.children.mapM (mergeChild es stored.entries) =
      p.children.mapM (mergeChild fs stored.entries) :=
    mapM_mergeChild_congr fun c hc => ih c hc _ _ _ (h c hc)
  cases he : p.element with
  | none => rw [mergeObject_none he, mergeObject_none he]
  | some s =>
    rw [mergeObject_some he, mergeObject_some he]
    change p.children.mapM (mergeChild es stored.entries) >>= _ =
      p.children.mapM (mergeChild fs stored.entries) >>= _
    rw [hchildren]

theorem mergeElement_eq_of_agree {v w : Value} (h : AgreeElement p v w) (stored : Value) :
    p.mergeObject v stored = p.mergeObject w stored := by
  cases h with
  | null => rfl
  | object h => exact mergeObject_eq_of_agree ih h stored

theorem list_eq_of_agree {xs ys : List Value} (h : List.Forall₂ (AgreeElement p) xs ys)
    (stored : List Value) : list p.mergeObject xs stored = list p.mergeObject ys stored := by
  rw [list, list]
  apply Traced.mapM_congr
  have hstored : List.Forall₂ Eq stored stored := List.forall₂_same.mpr fun _ _ => rfl
  apply (forall₂_paired h hstored .null rfl).imp
  rintro ⟨x, s⟩ ⟨y, s'⟩ ⟨hxy, rfl⟩
  exact mergeElement_eq_of_agree ih hxy s

end Elements

/-- The key fields of elements that agree are the same, so the elements meet the same stored
element. -/
theorem setHashes_eq_of_agree {p : Property} (hk : p.kind = .set)
    (he : p.element.isSome = true) (hp : p.KeyedSet) {v w : Value} (h : AgreeElement p v w) :
    p.setHashes.remote v = p.setHashes.remote w := by
  obtain ⟨hne, hkey⟩ := hp hk he
  rw [setHashes_keyed hne]
  cases h with
  | null => rfl
  | @object _ es fs h =>
    have hfields : p.correlationKey.map (Value.field es) = p.correlationKey.map (Value.field fs) := by
      refine List.map_congr_left fun field hf => ?_
      obtain ⟨c, hc, rfl, hw, hprim⟩ := hkey field hf
      exact (h c hc).eq_of_isPrimitive hw hprim
    simp only [Value.correlationHash, hfields]

theorem distinct_eq_of_agree {p : Property} (ih : ∀ c ∈ p.children, c.MergesAgreeing)
    (hk : p.kind = .set) (he : p.element.isSome = true) (hp : p.KeyedSet) {xs ys : List Value}
    (h : List.Forall₂ (AgreeElement p) xs ys) (stored : List Value) (seen : List UInt32) :
    distinct p.name p.mergeObject (counterpart p.setHashes stored) seen xs =
      distinct p.name p.mergeObject (counterpart p.setHashes stored) seen ys := by
  induction h generalizing seen with
  | nil => rfl
  | @cons x y xs ys hxy _ hrest =>
    have hcounterpart : counterpart p.setHashes stored x = counterpart p.setHashes stored y := by
      rw [counterpart, counterpart, setHashes_eq_of_agree hk he hp hxy]
    rw [distinct, distinct, hcounterpart, mergeElement_eq_of_agree ih hxy]
    simp only [hrest]

/-- The merge reads nothing of a remote value but its declared fields that are not write-only: two
remote values that agree there give the same result, or the same error. -/
theorem coerce_eq_of_agree {p : Property} (hp : p.Readable KeyedSet) {remote remote' : Value}
    (h : Agree p remote remote') (stored : Value) :
    coerce p remote stored = coerce p remote' stored := by
  induction p generalizing remote remote' stored with
  | step p ih =>
    by_cases hw : p.writeOnly = true
    · rw [coerce_writeOnly hw, coerce_writeOnly hw]
    · obtain ⟨hkeyed, hchildren⟩ := hp.cases (eq_false_of_ne_true hw)
      have ih : ∀ c ∈ p.children, c.MergesAgreeing := fun c hc _ _ stored hagree =>
        ih c hc (hchildren c hc) hagree stored
      cases h with
      | same => rfl
      | writeOnly h => exact absurd h hw
      | object hk h =>
        rw [coerce_eq, coerce_eq, if_neg hw, if_neg hw, hk]
        exact mergeObject_eq_of_agree ih h stored
      | @collection _ xs ys hk hl h =>
        have hxy : List.Forall₂ (AgreeElement p) xs ys :=
          List.forall₂_iff_zip.mpr ⟨hl, fun hmem => h _ hmem⟩
        rw [isObjectCollection, Bool.and_eq_true] at hk
        rw [coerce_eq, coerce_eq, if_neg hw, if_neg hw]
        split
        · rename_i hkind
          rw [hkind] at hk
          cases hk.1
        · rw [if_pos hk.2, if_pos hk.2, mergeList, mergeList]
          simp only [remoteItems, Traced.ofExcept_ok_bind, list_eq_of_agree ih hxy]
        · rename_i hkind
          rw [if_pos hk.2, if_pos hk.2, mergeSet, mergeSet]
          simp only [remoteItems, Traced.ofExcept_ok_bind, set_eq]
          rw [show hashes p.element p.correlationKey = p.setHashes from rfl,
            distinct_eq_of_agree ih hkind hk.2 hkeyed hxy]
        · rename_i hkind
          cases hp : p.kind <;> rw [hp] at hk <;> simp_all [Kind.isCollection]

def sampleAccounts : Property :=
  { name := "accounts", kind := .set, correlationKey := ["login"]
    element := some ⟨[{ name := "login", kind := .string },
      { name := "token", kind := .string, writeOnly := true }], false⟩ }

/-- A token that is sent and a field that is not declared make no difference. -/
theorem coerce_sampleAccounts :
    coerce sampleAccounts (.array [.object [("login", .string "a")]])
        (.array [.object [("login", .string "a"), ("token", .string "kept")]]) =
      coerce sampleAccounts
        (.array [.object [("login", .string "a"), ("token", .string "sent"), ("seen", .int 3)]])
        (.array [.object [("login", .string "a"), ("token", .string "kept")]]) := by
  refine coerce_eq_of_agree (.mk ?_ fun c hc => .mk ?_ ?_) (.collection rfl rfl ?_) _
  · refine fun _ _ => ⟨by decide, fun field hf => ?_⟩
    obtain rfl := List.mem_singleton.mp hf
    exact ⟨_, List.mem_cons_self, rfl, rfl, rfl⟩
  · rcases List.mem_cons.mp hc with rfl | hc
    · exact fun hk => nomatch hk
    · obtain rfl := List.mem_singleton.mp hc
      exact fun hk => nomatch hk
  · rcases List.mem_cons.mp hc with rfl | hc
    · exact fun d hd => nomatch hd
    · obtain rfl := List.mem_singleton.mp hc
      exact fun d hd => nomatch hd
  · intro pair hpair
    obtain rfl := List.mem_singleton.mp hpair
    refine .object fun c hc => ?_
    rcases List.mem_cons.mp hc with rfl | hc
    · exact .same _
    · obtain rfl := List.mem_singleton.mp hc
      exact .writeOnly rfl _ _

end Property

end Reconciliation
