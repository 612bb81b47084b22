import Reconciliation.Proofs.Merge.Again
import Reconciliation.Proofs.Merge.Order

/-! # Recognising what a merge stored

A merged element is the same item as the remote one that it comes from, if the merge stores what it
reads as it is: no number is cut, no missing object is filled in, no element comes or goes.
-/
namespace Reconciliation

open Merge

/-! ## Items that are the same as one another -/

namespace Merge

theorem sameItems_link {same : Value → Value → Bool} {xs xs' ys ys' : List Value}
    (hsame : ∀ y ∈ ys, ∀ x x' y', same x y = true → same x' y = true → same x' y' = true →
      same x y' = true)
    (h : sameItems same xs ys = true) (h' : sameItems same xs' ys = true)
    (k : sameItems same xs' ys' = true) : sameItems same xs ys' = true := by
  rw [sameItems_iff] at h h' k ⊢
  induction h generalizing xs' ys' with
  | nil =>
    cases h'
    cases k
    exact .nil
  | cons hxy _ ih =>
    cases h' with
    | cons hxy' htl' =>
      cases k with
      | cons kxy ktl =>
        have hrest := ih (fun y hy => hsame y (List.mem_cons_of_mem _ hy)) htl' ktl
        exact .cons (hsame _ (by simp) _ _ _ hxy hxy' kxy) hrest

theorem length_of_distinct {name : String} {merge : Value → Value → Merged Value}
    {f : Value → Value} {seen : List UInt32} {remote vs : List Value}
    (h : (distinct name merge f seen remote).result = .ok vs) : vs.length ≤ remote.length := by
  obtain ⟨ms, hms, rfl⟩ := ok_distinct.mp h
  rw [hms.length_eq]
  exact (sublist_firsts seen ms).length_le

theorem forall₂_of_distinct {name : String} {merge : Value → Value → Merged Value}
    {f : Value → Value} {seen : List UInt32} {remote vs : List Value}
    (h : (distinct name merge f seen remote).result = .ok vs)
    (hsize : vs.length = remote.length) :
    List.Forall₂ (fun x v => (merge x (f x)).result = .ok v) remote vs := by
  obtain ⟨ms, hms, rfl⟩ := ok_distinct.mp h
  rw [(sublist_firsts seen ms).eq_of_length (hsize.trans hms.length_eq)]
  exact hms

theorem scalar_shape {name : String} {kind : Kind} {remote v : Value}
    (h : scalar name kind remote = .ok v) : v.shape ≠ .array := by
  unfold scalar at h
  split at h
  case h_6 =>
    split at h <;> cases h
    simp [Value.shape]
  case h_8 =>
    split at h <;> cases h
    simp [Value.shape]
  all_goals cases h
  all_goals simp [Value.shape]

end Merge

namespace Value

theorem equals_link {s s' r r' : Value} (hk : r.keysDistinct = true) (h : s.equals r = true)
    (h' : s'.equals r = true) (k : s'.equals r' = true) : s.equals r' = true :=
  equals_trans h (equals_trans (equals_symm hk h') k)

theorem keysDistinct_field_entries {v : Value} (h : v.keysDistinct = true) (k : String) :
    (field v.entries k).keysDistinct = true :=
  everywhere_field rfl (everywhere_entries h) k

theorem nanFree_field_entries {v : Value} (h : v.nanFree = true) (k : String) :
    (field v.entries k).nanFree = true :=
  everywhere_field rfl (everywhere_entries h) k

end Value

namespace Property

theorem sameField_plain {p : Property} (hw : p.writeOnly = false) (he : p.element.isNone = true)
    (s r : Value) : sameField p s r = s.equals r := by
  rw [sameField_eq, hw, if_neg Bool.false_ne_true, if_pos he]

theorem sameField_object {p : Property} (hw : p.writeOnly = false)
    (he : p.element.isNone = false) (hk : p.kind = .object) (s r : Value) :
    sameField p s r = p.sameItem s r := by
  rw [sameField_eq, hw, he, if_neg Bool.false_ne_true, if_neg Bool.false_ne_true, if_pos hk]

/-- Collections of objects are compared one by one, and anything else as a whole. -/
theorem sameField_collection {p : Property} (hw : p.writeOnly = false)
    (he : p.element.isNone = false) (hk : p.kind ≠ .object) {s r : Value} :
    sameField p s r = true ↔
      (∃ xs ys, s = .array xs ∧ r = .array ys ∧ sameItems p.sameItem xs ys = true) ∨
        (s.shape ≠ .array ∧ s.equals r = true) := by
  rw [sameField_eq, hw, he, if_neg Bool.false_ne_true, if_neg Bool.false_ne_true, if_neg hk]
  cases s with
  | array xs =>
    cases r with
    | array ys => simp [Value.shape]
    | _ => simp [Value.shape, Value.equals]
  | _ => simp [Value.shape]

/-- Two stored values that are the same as one remote value are the same as one another's. -/
def Links (p : Property) : Prop :=
  ∀ s s' r r', r.keysDistinct = true → sameField p s r = true → sameField p s' r = true →
    sameField p s' r' = true → sameField p s r' = true

theorem sameItem_link {p : Property} (ih : ∀ c ∈ p.children, c.Links) {s s' r r' : Value}
    (hk : r.keysDistinct = true) (h : p.sameItem s r = true) (h' : p.sameItem s' r = true)
    (k : p.sameItem s' r' = true) : p.sameItem s r' = true := by
  cases he : p.element with
  | none =>
    rw [sameItem_none he] at h h' k ⊢
    exact Value.equals_link hk h h' k
  | some e =>
    rw [sameItem_some he] at h h' k ⊢
    cases hs : s.isNull <;> cases hr : r.isNull <;> cases hs' : s'.isNull <;>
      cases hr' : r'.isNull <;> simp_all only [Bool.or_true, Bool.or_false, Bool.and_true,
        Bool.and_false, Bool.false_eq_true, if_true, if_false, List.all_eq_true]
    intro c hc
    exact ih c hc _ _ _ _ (Value.keysDistinct_field_entries hk _) (h c hc) (h' c hc) (k c hc)

theorem sameField_link (p : Property) : p.Links := by
  induction p with
  | step p ih =>
    intro s s' r r' hk h h' k
    by_cases hw : p.writeOnly = true
    · rw [sameField_eq, if_pos hw]
    have hw := eq_false_of_ne_true hw
    cases he : p.element.isNone with
    | true =>
      rw [sameField_plain hw he] at h h' k ⊢
      exact Value.equals_link hk h h' k
    | false =>
      by_cases ho : p.kind = .object
      · rw [sameField_object hw he ho] at h h' k ⊢
        exact sameItem_link ih hk h h' k
      rw [sameField_collection hw he ho] at h h' k ⊢
      rcases h with ⟨xs, ys, rfl, rfl, h⟩ | ⟨hs, h⟩
      · rcases h' with ⟨xs', ys', rfl, heq, h'⟩ | ⟨hs', h'⟩
        · obtain rfl := Value.array.inj heq
          rcases k with ⟨zs, ws, heq, rfl, k⟩ | ⟨hs', -⟩
          · obtain rfl := Value.array.inj heq
            have hys := Value.keysDistinct_array.mp hk
            refine Or.inl ⟨xs, ws, rfl, rfl, sameItems_link (fun y hy a b c => ?_) h h' k⟩
            exact sameItem_link ih (hys y hy)
          · exact absurd rfl hs'
        · exact absurd (Value.equals_shape h') hs'
      · have hr : r.shape ≠ .array := Value.equals_shape h ▸ hs
        rcases h' with ⟨xs', ys', rfl, rfl, -⟩ | ⟨hs', h'⟩
        · exact absurd rfl hr
        · rcases k with ⟨zs, ws, rfl, -, -⟩ | ⟨-, k⟩
          · exact absurd rfl hs'
          · exact Or.inr ⟨hs, Value.equals_link hk h h' k⟩

/-! ## What a merge stores as it is -/

structure Kept (p : Property) (remote stored : Value) : Prop where
  /-- No number is cut or rounded. -/
  scalar : p.kind.isPrimitive = true → ∀ v, Merge.scalar p.name p.kind remote = .ok v →
    v.equals remote = true
  /-- No object is filled in. -/
  object : p.kind = .object → remote.isNull = false
  array : p.isObjectCollection = true → ∃ xs, remote = .array xs ∧ ∀ x ∈ xs, x.isNull = false
  /-- No element is left over or skipped. -/
  size : p.isObjectCollection = true → ∀ v, (coerce p remote stored).result = .ok v →
    v.items.length = remote.items.length

/-- Where there is no collection of objects, no element comes or goes. -/
theorem Kept.of_no_elements {p : Property} {remote stored : Value}
    (hc : p.isObjectCollection ≠ true)
    (scalar : p.kind.isPrimitive = true → ∀ v, Merge.scalar p.name p.kind remote = .ok v →
      v.equals remote = true)
    (object : p.kind = .object → remote.isNull = false) : p.Kept remote stored :=
  ⟨scalar, object, fun h => absurd h hc, fun h => absurd h hc⟩

theorem Kept.primitive {p : Property} {remote stored : Value} (hk : p.kind.isPrimitive = true)
    (h : ∀ v, Merge.scalar p.name p.kind remote = .ok v → v.equals remote = true) :
    p.Kept remote stored := by
  have hcollection : p.isObjectCollection ≠ true := by
    rw [isObjectCollection]
    cases hp : p.kind <;> rw [hp] at hk <;> first | exact Bool.false_ne_true | cases hk
  refine .of_no_elements hcollection (fun _ => h) fun hp => ?_
  rw [hp] at hk
  cases hk

theorem Kept.primitives {p : Property} {remote stored : Value}
    (hk : p.isPrimitiveCollection = true) : p.Kept remote stored := by
  obtain ⟨hkind, he, -⟩ := isPrimitiveCollection_iff.mp hk
  have hcollection : p.isObjectCollection ≠ true := by
    rw [isObjectCollection, he, Bool.and_false]
    exact Bool.false_ne_true
  have hkinds : p.kind.isPrimitive ≠ true ∧ p.kind ≠ .object := by
    rcases hkind with hkind | hkind <;> rw [hkind] <;> decide
  exact .of_no_elements hcollection (fun hp => absurd hp hkinds.1) fun hp => absurd hp hkinds.2

theorem Kept.present {p : Property} {remote stored : Value} (hk : p.kind = .object)
    (hr : remote.isNull = false) : p.Kept remote stored := by
  have hcollection : p.isObjectCollection ≠ true := by
    rw [isObjectCollection, hk]
    exact Bool.false_ne_true
  have hprimitive : p.kind.isPrimitive ≠ true := by
    rw [hk]
    exact Bool.false_ne_true
  exact .of_no_elements hcollection (fun hp => absurd hp hprimitive) fun _ => hr

theorem isObjectCollection_of_list {p : Property} (hk : p.kind = .list)
    (he : p.element.isSome = true) : p.isObjectCollection = true := by
  simp [isObjectCollection, hk, he, Kind.isCollection]

theorem isObjectCollection_of_set {p : Property} (hk : p.kind = .set)
    (he : p.element.isSome = true) : p.isObjectCollection = true := by
  simp [isObjectCollection, hk, he, Kind.isCollection]

theorem sameItem_mergeObject {p : Property} (hn : p.NamesDistinct) {remote stored v : Value}
    (ih : ∀ c ∈ p.children, ∀ w, (coerce c (Value.field remote.entries c.name)
      (Value.field stored.entries c.stateName)).result = .ok w →
        sameField c w (Value.field remote.entries c.name) = true)
    (hr : remote.isNull = false) (h : (p.mergeObject remote stored).result = .ok v) :
    p.sameItem v remote = true := by
  obtain ⟨he, rs, es, hrs, ha, rfl⟩ := ok_mergeObject.mp h
  obtain rfl := remoteEntries_ok hrs
  obtain ⟨e, he⟩ := Option.isSome_iff_exists.mp he
  rw [sameItem_some he, isNull_wrapped, hr, entries_wrapped, ha.ofList_eq hn]
  simp only [Bool.or_self, Bool.false_eq_true, if_false, List.all_eq_true]
  intro c hc
  exact ih c hc _ (ha.field_eq hn hc)

theorem sameField_scalar {p : Property} (hp : p.kind.isPrimitive = true) {remote v : Value}
    (hv : scalar p.name p.kind remote = .ok v) (h : v.equals remote = true) :
    sameField p v remote = true := by
  by_cases hw : p.writeOnly = true
  · rw [sameField_eq, if_pos hw]
  have hw := eq_false_of_ne_true hw
  cases he : p.element.isNone with
  | true => rw [sameField_plain hw he, h]
  | false =>
    have hk : p.kind ≠ .object := by
      intro hk
      rw [hk] at hp
      cases hp
    exact (sameField_collection hw he hk).mpr (Or.inr ⟨scalar_shape hv, h⟩)

theorem sameField_items {p : Property} (hp : p.isObjectCollection = true) {xs ys : List Value}
    (h : List.Forall₂ (fun x y => p.sameItem x y = true) xs ys) :
    sameField p (.array xs) (.array ys) = true := by
  rw [isObjectCollection, Bool.and_eq_true] at hp
  by_cases hw : p.writeOnly = true
  · rw [sameField_eq, if_pos hw]
  have he : p.element.isNone = false := by
    rw [Option.isNone_eq_false_iff]
    exact hp.2
  have hk : p.kind ≠ .object := by
    intro hk
    rw [hk] at hp
    cases hp.1
  exact (sameField_collection (eq_false_of_ne_true hw) he hk).mpr
    (Or.inl ⟨xs, ys, rfl, rfl, sameItems_iff.mpr h⟩)

section Elements

variable {p : Property} {rs : List Value} {stored : Value}
  (ih : ∀ pair ∈ p.met (.array rs) stored, ∀ v, pair.1 ∈ rs →
    (p.mergeObject pair.1 pair.2).result = .ok v → p.sameItem v pair.1 = true)
include ih

theorem sameItems_mergeList (hk : p.kind = .list) {vs : List Value}
    (h : (p.mergeList (.array rs) stored).result = .ok (.array vs))
    (hsize : vs.length = rs.length) :
    List.Forall₂ (fun x y => p.sameItem x y = true) vs rs := by
  obtain ⟨_, _, hrs, hvs, heq⟩ := ok_mergeList.mp h
  obtain rfl := Except.ok.inj hrs
  obtain rfl := Value.array.inj heq
  have hle : stored.items.length ≤ rs.length := by
    have hlength := hvs.length_eq
    rw [length_paired] at hlength
    omega
  have hfst := map_fst_paired hle
  rw [met, hk] at ih
  have hsame : List.Forall₂ (fun v pair => p.sameItem v pair.1 = true) vs
      (paired rs stored.items) := by
    apply List.Forall₂.flip
    refine ((List.forall₂_and_left _ _).mpr ⟨fun pair hp => hp, hvs⟩).imp fun pair v hpv => ?_
    have hmem : pair.1 ∈ rs := hfst ▸ List.mem_map_of_mem hpv.1
    exact ih pair hpv.1 v hmem hpv.2
  have hmap : List.Forall₂ (fun v r => p.sameItem v r = true) vs
      ((paired rs stored.items).map Prod.fst) := List.forall₂_map_right_iff.mpr hsame
  rwa [hfst] at hmap

theorem sameItems_mergeSet (hk : p.kind = .set) {vs : List Value}
    (h : (p.mergeSet (.array rs) stored).result = .ok (.array vs))
    (hsize : vs.length = rs.length) :
    List.Forall₂ (fun x y => p.sameItem x y = true) vs rs := by
  obtain ⟨_, _, hrs, hvs, heq⟩ := ok_mergeSet.mp h
  obtain rfl := Except.ok.inj hrs
  obtain rfl := Value.array.inj heq
  rw [met, hk] at ih
  have hmerged := forall₂_of_distinct hvs hsize
  apply List.Forall₂.flip
  refine ((List.forall₂_and_left _ _).mpr ⟨fun r hr => hr, hmerged⟩).imp fun r v hrv => ?_
  exact ih (r, _) (List.mem_map_of_mem hrv.1) v hrv.1 hrv.2

end Elements

/-- Where a merge stores what it reads as it is, the comparison recognises the result. -/
theorem sameField_coerce {p : Property} (hn : p.Throughout NamesDistinct)
    {remote stored v : Value} (hk : remote.keysDistinct = true) (hf : remote.nanFree = true)
    (h : p.Along Kept remote stored) (hv : (coerce p remote stored).result = .ok v) :
    sameField p v remote = true := by
  induction p generalizing remote stored v with
  | step p ih =>
    by_cases hw : p.writeOnly = true
    · rw [sameField_eq, if_pos hw]
    have hw := eq_false_of_ne_true hw
    obtain ⟨hkept, hbelow⟩ := h.cases hw
    have hobject : ∀ pair ∈ p.met remote stored, pair.1.keysDistinct = true →
        pair.1.nanFree = true → pair.1.isNull = false → ∀ w,
          (p.mergeObject pair.1 pair.2).result = .ok w → p.sameItem w pair.1 = true := by
      intro pair hpair hpk hpf hnull w hm
      refine sameItem_mergeObject hn.own (fun c hc u hu => ?_) hnull hm
      exact ih c hc (hn.children hc) (Value.keysDistinct_field_entries hpk _)
        (Value.nanFree_field_entries hpf _) (hbelow pair hpair c hc) hu
    have hitems : ∀ rs, remote = .array rs → p.isObjectCollection = true →
        ∀ pair ∈ p.met (.array rs) stored, ∀ w, pair.1 ∈ rs →
          (p.mergeObject pair.1 pair.2).result = .ok w → p.sameItem w pair.1 = true := by
      rintro rs rfl hcollection pair hpair w hmem hm
      obtain ⟨_, heq, hnull⟩ := hkept.array hcollection
      obtain rfl := Value.array.inj heq
      exact hobject pair hpair (Value.keysDistinct_array.mp hk _ hmem)
        (Value.nanFree_array.mp hf _ hmem) (hnull _ hmem) w hm
    cases ok_coerce.mp hv with
    | writeOnly hw' =>
      rw [hw] at hw'
      cases hw'
    | object _ hkind hm =>
      have he : p.element.isNone = false := by
        rw [Option.isNone_eq_false_iff]
        exact (ok_mergeObject.mp hm).1
      rw [sameField_object hw he hkind]
      have hmem : (remote, stored) ∈ p.met remote stored := by simp [met, hkind]
      exact hobject _ hmem hk hf (hkept.object hkind) v hm
    | list _ hkind he hm =>
      have hcollection := isObjectCollection_of_list hkind he
      obtain ⟨rs, rfl, -⟩ := hkept.array hcollection
      obtain ⟨-, vs, -, -, rfl⟩ := ok_mergeList.mp hm
      exact sameField_items hcollection
        (sameItems_mergeList (hitems rs rfl hcollection) hkind hm (hkept.size hcollection _ hv))
    | set _ hkind he hm =>
      have hcollection := isObjectCollection_of_set hkind he
      obtain ⟨rs, rfl, -⟩ := hkept.array hcollection
      obtain ⟨-, vs, -, -, rfl⟩ := ok_mergeSet.mp hm
      exact sameField_items hcollection
        (sameItems_mergeSet (hitems rs rfl hcollection) hkind hm (hkept.size hcollection _ hv))
    | primitives _ _ he _ hm =>
      have hsame : v = remote := by
        unfold primitives at hm
        split at hm <;> cases hm <;> rfl
      rw [sameField_plain hw (by simpa using he), hsame, Value.equals_refl hk hf]
    | scalar _ hp hm => exact sameField_scalar hp hm (hkept.scalar hp v hm)

theorem sameItem_of_kept {p : Property} (hn : p.Throughout NamesDistinct)
    {remote stored v : Value} (hk : remote.keysDistinct = true) (hf : remote.nanFree = true)
    (hr : remote.isNull = false) (h : p.ElementAlong Kept remote stored)
    (hv : (p.mergeObject remote stored).result = .ok v) : p.sameItem v remote = true :=
  sameItem_mergeObject hn.own (fun c hc _ hw => sameField_coerce (hn.children hc)
    (Value.keysDistinct_field_entries hk _) (Value.nanFree_field_entries hf _) (h c hc) hw) hr hv

end Property

end Reconciliation
