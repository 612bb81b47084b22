import Mathlib.Data.List.Forall2
import Reconciliation.Merge.Coercion
import Reconciliation.Proofs.Entries
import Reconciliation.Proofs.Schema.Shape
import Reconciliation.Proofs.Traced

/-! # What merging a property gives

One equation for each kind of property, and for each kind of merge what its result is made of.
-/
namespace Reconciliation

namespace Merge

/-! ## The element that a set merges with -/

/-- The first stored element with the hash of a remote one, or null. -/
def counterpart (h : Hashes) (stored : List Value) (remote : Value) : Value :=
  (stored.find? fun s => h.stored s == h.remote remote).getD .null

theorem lookup_foldl_index (hash : Value → UInt32) (stored : List Value)
    (done : List (UInt32 × Value)) (k : UInt32) :
    (stored.foldl (fun done v =>
        if (done.lookup (hash v)).isSome then done else done ++ [(hash v, v)]) done).lookup k =
      (done.lookup k).or (stored.find? fun v => hash v == k) := by
  induction stored generalizing done with
  | nil => simp
  | cons v vs ih =>
    rw [List.foldl_cons, ih, List.find?_cons]
    by_cases hk : hash v = k
    · subst hk
      cases hd : done.lookup (hash v) with
      | some w => simp [hd]
      | none => simp [hd, List.lookup_append]
    · have hne : (hash v == k) = false := beq_eq_false_iff_ne.mpr hk
      have hne' : (k == hash v) = false := beq_eq_false_iff_ne.mpr (Ne.symm hk)
      rw [hne]
      split
      · rfl
      · rw [List.lookup_append, List.lookup_cons, hne']
        simp

/-- The index finds what a scan from the front finds. -/
theorem lookup_index (hash : Value → UInt32) (stored : List Value) (k : UInt32) :
    (index hash stored).lookup k = stored.find? fun v => hash v == k := by
  rw [index, lookup_foldl_index]
  rfl

theorem set_eq (name : String) (h : Hashes) (merge : Value → Value → Merged Value)
    (remote stored : List Value) :
    set name h merge remote stored = distinct name merge (counterpart h stored) [] remote := by
  rw [set]
  congr 1
  funext v
  rw [lookup_index, counterpart]

/-! ## Pairs by position -/

theorem length_paired (remote stored : List Value) :
    (paired remote stored).length = max remote.length stored.length := by
  induction remote generalizing stored with
  | nil => simp [paired]
  | cons r rs ih =>
    cases stored with
    | nil => simp [paired, ih]
    | cons s ss =>
      simp only [paired, List.length_cons, ih]
      omega

theorem map_fst_paired {remote stored : List Value} (h : stored.length ≤ remote.length) :
    (paired remote stored).map Prod.fst = remote := by
  induction remote generalizing stored with
  | nil =>
    obtain rfl := List.length_eq_zero_iff.mp (Nat.le_zero.mp h)
    rfl
  | cons r rs ih =>
    cases stored with
    | nil => rw [paired, List.map_cons, ih (Nat.zero_le _)]
    | cons s ss => rw [paired, List.map_cons, ih (Nat.le_of_succ_le_succ h)]

/-- At every place stand the items of both lists there, or null. -/
theorem getElem?_paired {remote stored : List Value} {k : Nat}
    (hk : k < max remote.length stored.length) :
    (paired remote stored)[k]? = some ((remote[k]?).getD .null, (stored[k]?).getD .null) := by
  induction remote generalizing stored k with
  | nil =>
    have hk : k < stored.length := by simpa using hk
    simp [paired, List.getElem?_eq_getElem hk]
  | cons r rs ih =>
    cases stored with
    | nil =>
      cases k with
      | zero => rfl
      | succ k =>
        have hk : k < max rs.length ([] : List Value).length := by simpa using hk
        rw [paired, List.getElem?_cons_succ, ih hk]
        rfl
    | cons s ss =>
      cases k with
      | zero => rfl
      | succ k =>
        have hk : k < max rs.length ss.length := by
          simp only [List.length_cons] at hk
          omega
        rw [paired, List.getElem?_cons_succ, ih hk]
        rfl

theorem mem_paired {remote stored : List Value} {pair : Value × Value}
    (h : pair ∈ paired remote stored) :
    (pair.1 = .null ∨ pair.1 ∈ remote) ∧ (pair.2 = .null ∨ pair.2 ∈ stored) := by
  induction remote generalizing stored with
  | nil =>
    rw [paired] at h
    obtain ⟨y, hy, rfl⟩ := List.mem_map.mp h
    exact ⟨Or.inl rfl, Or.inr hy⟩
  | cons r rs ih =>
    cases stored with
    | nil =>
      rw [paired] at h
      rcases List.mem_cons.mp h with rfl | h
      · exact ⟨Or.inr (by simp), Or.inl rfl⟩
      · exact ⟨(ih h).1.imp_right (List.mem_cons_of_mem _), (ih h).2⟩
    | cons s ss =>
      rw [paired] at h
      rcases List.mem_cons.mp h with rfl | h
      · exact ⟨Or.inr (by simp), Or.inr (by simp)⟩
      · exact ⟨(ih h).1.imp_right (List.mem_cons_of_mem _),
          (ih h).2.imp_right (List.mem_cons_of_mem _)⟩

/-- Items that are related place by place, as null is to itself, make pairs of related items. -/
theorem forall₂_paired {R S : Value → Value → Prop} {remote remote' stored stored' : List Value}
    (hr : List.Forall₂ R remote remote') (hs : List.Forall₂ S stored stored')
    (hR : R .null .null) (hS : S .null .null) :
    List.Forall₂ (fun a b => R a.1 b.1 ∧ S a.2 b.2) (paired remote stored)
      (paired remote' stored') := by
  induction hr generalizing stored stored' with
  | nil =>
    rw [paired, paired, List.forall₂_map_left_iff, List.forall₂_map_right_iff]
    exact hs.imp fun _ _ hxy => ⟨hR, hxy⟩
  | cons hrr _ ih =>
    cases hs with
    | nil => exact .cons ⟨hrr, hS⟩ (ih .nil)
    | cons hss hs => exact .cons ⟨hrr, hss⟩ (ih hs)

/-! ## Objects -/

def wrapped (wraps : Bool) (es : Entries Value) : Value :=
  if wraps then .array [.object es] else .object es

@[simp] theorem entries_wrapped (wraps : Bool) (es : Entries Value) :
    (wrapped wraps es).entries = es := by
  cases wraps <;> rfl

theorem isNull_wrapped (wraps : Bool) (es : Entries Value) :
    (wrapped wraps es).isNull = false := by
  cases wraps <;> rfl

def mergeChild (remote stored : Entries Value) (c : Property) : Merged (String × Value) := do
  let v ← coerce c (Value.field remote c.name) (Value.field stored c.stateName)
  pure (c.stateName, v)

theorem fields_eq (children : List Property) (remote stored : Entries Value) :
    fields children remote stored = children.mapM (mergeChild remote stored) := by
  induction children with
  | nil => rfl
  | cons c cs ih =>
    rw [fields, List.mapM_cons, ih, mergeChild, bind_assoc]
    rfl

theorem mapM_mergeChild_congr {children : List Property} {remote remote' stored stored' : Entries Value}
    (h : ∀ c ∈ children, coerce c (Value.field remote c.name) (Value.field stored c.stateName) =
      coerce c (Value.field remote' c.name) (Value.field stored' c.stateName)) :
    children.mapM (mergeChild remote stored) = children.mapM (mergeChild remote' stored') := by
  apply Traced.mapM_congr
  rw [List.forall₂_same]
  intro c hc
  rw [mergeChild, mergeChild, h c hc]

/-! ## The elements that a set keeps -/

/-- One more element of a set is merged. Unless one of its hash is there already, it is kept. -/
theorem ok_distinct_cons {name : String} {merge : Value → Value → Merged Value}
    {f : Value → Value} {seen : List UInt32} {x : Value} {xs vs : List Value} :
    (distinct name merge f seen (x :: xs)).result = .ok vs ↔
      ∃ v, (merge x (f x)).result = .ok v ∧
        ((v.hash ∈ seen ∧ (distinct name merge f seen xs).result = .ok vs) ∨
          (v.hash ∉ seen ∧ ∃ ws, (distinct name merge f (v.hash :: seen) xs).result = .ok ws ∧
            vs = v :: ws)) := by
  rw [distinct, Traced.ok_bind]
  refine exists_congr fun v => and_congr_right fun _ => ?_
  dsimp only
  by_cases hseen : v.hash ∈ seen
  · rw [if_pos hseen, Traced.ok_bind]
    simp [hseen]
  · rw [if_neg hseen, Traced.ok_bind]
    simp [hseen, eq_comm]

/-- The first value of each hash, of the hashes that were not seen before. -/
def firsts (seen : List UInt32) : List Value → List Value
  | [] => []
  | v :: vs => if v.hash ∈ seen then firsts seen vs else v :: firsts (v.hash :: seen) vs

theorem sublist_firsts (seen : List UInt32) (vs : List Value) : (firsts seen vs).Sublist vs := by
  induction vs generalizing seen with
  | nil => exact List.nil_sublist []
  | cons v vs ih =>
    rw [firsts]
    split
    · exact (ih seen).cons v
    · exact (ih _).cons_cons v

/-- Every hash is that of a first value, if it was not seen before. -/
theorem exists_first {seen : List UInt32} {vs : List Value} {v : Value} (hv : v ∈ vs)
    (hseen : v.hash ∉ seen) : ∃ w ∈ firsts seen vs, w.hash = v.hash := by
  induction vs generalizing seen with
  | nil => cases hv
  | cons x xs ih =>
    rw [firsts]
    rcases List.mem_cons.mp hv with rfl | hv
    · rw [if_neg hseen]
      exact ⟨v, List.mem_cons_self, rfl⟩
    · by_cases hx : x.hash ∈ seen
      · rw [if_pos hx]
        exact ih hv hseen
      · rw [if_neg hx]
        by_cases heq : v.hash = x.hash
        · exact ⟨x, List.mem_cons_self, heq.symm⟩
        · obtain ⟨w, hw, hwv⟩ := ih hv (List.not_mem_cons_of_ne_of_not_mem heq hseen)
          exact ⟨w, List.mem_cons_of_mem _ hw, hwv⟩

/-- First values differ in their hashes, and from those seen before. -/
theorem nodup_firsts (seen : List UInt32) (vs : List Value) :
    ((firsts seen vs).map Value.hash).Nodup ∧ ∀ v ∈ firsts seen vs, v.hash ∉ seen := by
  induction vs generalizing seen with
  | nil => exact ⟨List.nodup_nil, by simp [firsts]⟩
  | cons v vs ih =>
    rw [firsts]
    split
    · exact ih seen
    · rename_i hseen
      obtain ⟨hnodup, hnew⟩ := ih (v.hash :: seen)
      constructor
      · rw [List.map_cons, List.nodup_cons]
        refine ⟨?_, hnodup⟩
        intro hmem
        obtain ⟨w, hw, heq⟩ := List.mem_map.mp hmem
        exact hnew w hw (heq ▸ List.mem_cons_self)
      · intro w hw
        rcases List.mem_cons.mp hw with rfl | hw
        · exact hseen
        · intro hmem
          exact hnew w hw (List.mem_cons_of_mem _ hmem)

/-- Values that differ in their hashes are all first ones. -/
theorem firsts_eq_self {seen : List UInt32} {vs : List Value} (hn : (vs.map Value.hash).Nodup)
    (hseen : ∀ v ∈ vs, v.hash ∉ seen) : firsts seen vs = vs := by
  induction vs generalizing seen with
  | nil => rfl
  | cons v vs ih =>
    obtain ⟨hnew, hrest⟩ := List.nodup_cons.mp hn
    obtain ⟨hv, hvs⟩ := List.forall_mem_cons.mp hseen
    rw [firsts, if_neg hv, ih hrest]
    intro w hw hmem
    rcases List.mem_cons.mp hmem with heq | hmem
    · exact hnew (heq ▸ List.mem_map_of_mem hw)
    · exact hvs w hw hmem

/-- Every remote element is merged, and of the merged elements the first of each hash are kept. -/
theorem ok_distinct {name : String} {merge : Value → Value → Merged Value} {f : Value → Value}
    {seen : List UInt32} {remote vs : List Value} :
    (distinct name merge f seen remote).result = .ok vs ↔
      ∃ ms, List.Forall₂ (fun r m => (merge r (f r)).result = .ok m) remote ms ∧
        vs = firsts seen ms := by
  induction remote generalizing seen vs with
  | nil =>
    simp only [List.forall₂_nil_left_iff, exists_eq_left, firsts, distinct, Traced.result_pure,
      Except.ok.injEq, eq_comm]
  | cons r rs ih =>
    rw [ok_distinct_cons]
    constructor
    · rintro ⟨m, hm, ⟨hseen, hd⟩ | ⟨hseen, ws, hd, rfl⟩⟩
      · obtain ⟨ms, hms, rfl⟩ := ih.mp hd
        exact ⟨m :: ms, .cons hm hms, by rw [firsts, if_pos hseen]⟩
      · obtain ⟨ms, hms, rfl⟩ := ih.mp hd
        exact ⟨m :: ms, .cons hm hms, by rw [firsts, if_neg hseen]⟩
    · rintro ⟨_, _ | ⟨hm, hms⟩, rfl⟩
      refine ⟨_, hm, ?_⟩
      rw [firsts]
      split
      · rename_i hseen
        exact Or.inl ⟨hseen, ih.mpr ⟨_, hms, rfl⟩⟩
      · rename_i hseen
        exact Or.inr ⟨hseen, _, ih.mpr ⟨_, hms, rfl⟩, rfl⟩

end Merge

namespace Property

open Merge

theorem coerce_eq (p : Property) (remote stored : Value) : coerce p remote stored =
    if p.writeOnly then pure stored
    else match p.kind with
      | .object => p.mergeObject remote stored
      | .list =>
        if p.element.isSome then p.mergeList remote stored
        else if p.itemKind.any Kind.isPrimitive then Traced.ofExcept (primitives p.name remote)
        else Traced.throw (.listOfUnknown p.name)
      | .set =>
        if p.element.isSome then p.mergeSet remote stored
        else if p.itemKind.any Kind.isPrimitive then Traced.ofExcept (primitives p.name remote)
        else Traced.throw (.setOfUnknown p.name)
      | kind => Traced.ofExcept (scalar p.name kind remote) := by
  obtain ⟨name, kind, writeOnly, ignoreOrder, element, itemKind, isIdentifier, preferred, key⟩ := p
  cases kind <;> (unfold coerce; rfl)

theorem coerce_writeOnly {p : Property} (h : p.writeOnly = true) (remote stored : Value) :
    coerce p remote stored = pure stored := by
  rw [coerce_eq, if_pos h]

theorem coerce_list {p : Property} (hk : p.kind = .list) (hw : p.writeOnly = false)
    (remote stored : Value) : coerce p remote stored =
      if p.element.isSome then p.mergeList remote stored
      else if p.itemKind.any Kind.isPrimitive then Traced.ofExcept (primitives p.name remote)
      else Traced.throw (.listOfUnknown p.name) := by
  rw [coerce_eq, hw, if_neg Bool.false_ne_true, hk]

theorem mergeObject_none {p : Property} (h : p.element = none) (remote stored : Value) :
    p.mergeObject remote stored = Traced.throw (.noElementSchema p.name) := by
  rw [mergeObject, h]
  rfl

theorem mergeObject_some {p : Property} {s : Schema} (h : p.element = some s)
    (remote stored : Value) : p.mergeObject remote stored =
      Traced.ofExcept (remoteEntries p.name remote) >>= fun remote =>
        p.children.mapM (mergeChild remote stored.entries) >>= fun merged =>
          pure (wrapped p.wraps (Entries.ofList merged)) := by
  obtain ⟨children, wraps⟩ := s
  rw [mergeObject, children_of_element h, h, object]
  simp only [fields_eq]
  rw [Property.wraps, h]
  rfl

/-! ## What a merged object holds -/

/-- The entries `es` hold the children's merged values, in declaration order. -/
structure Assembled (p : Property) (remote stored es : Entries Value) : Prop where
  keys : es.keys = p.children.map stateName
  values : List.Forall₂ (fun c e => (coerce c (Value.field remote c.name)
    (Value.field stored c.stateName)).result = .ok e.2) p.children es

theorem ok_children {cs : List Property} {remote stored es : Entries Value} :
    (cs.mapM (mergeChild remote stored)).result = .ok es ↔
      es.keys = cs.map stateName ∧ List.Forall₂ (fun c e => (coerce c (Value.field remote c.name)
        (Value.field stored c.stateName)).result = .ok e.2) cs es := by
  rw [Traced.ok_mapM]
  induction cs generalizing es with
  | nil =>
    rw [List.forall₂_nil_left_iff, List.forall₂_nil_left_iff]
    exact ⟨fun h => ⟨h ▸ rfl, h⟩, fun h => h.2⟩
  | cons c cs ih =>
    rw [List.forall₂_cons_left_iff, List.forall₂_cons_left_iff]
    constructor
    · rintro ⟨e, es, he, hes, rfl⟩
      obtain ⟨v, hv, he⟩ := Traced.ok_bind.mp he
      obtain rfl := Except.ok.inj he
      obtain ⟨hkeys, hvalues⟩ := ih.mp hes
      refine ⟨?_, _, _, hv, hvalues, rfl⟩
      rw [Entries.keys_cons, hkeys, List.map_cons]
    · rintro ⟨hkeys, e, es, he, hes, rfl⟩
      obtain ⟨k, v⟩ := e
      rw [Entries.keys_cons, List.map_cons, List.cons.injEq] at hkeys
      exact ⟨(k, v), es, Traced.ok_bind.mpr ⟨v, he, by rw [← hkeys.1]; rfl⟩,
        ih.mpr ⟨hkeys.2, hes⟩, rfl⟩

/-- A merged object is assembled from its children. -/
theorem ok_mergeObject {p : Property} {remote stored v : Value} :
    (p.mergeObject remote stored).result = .ok v ↔
      p.element.isSome = true ∧ ∃ r es, remoteEntries p.name remote = .ok r ∧
        p.Assembled r stored.entries es ∧ v = wrapped p.wraps (Entries.ofList es) := by
  cases he : p.element with
  | none => simp [mergeObject_none he]
  | some s =>
    rw [mergeObject_some he, Traced.ok_bind]
    constructor
    · rintro ⟨r, hr, h⟩
      obtain ⟨es, hes, hv⟩ := Traced.ok_bind.mp h
      obtain ⟨hkeys, hvalues⟩ := ok_children.mp hes
      exact ⟨rfl, r, es, hr, ⟨hkeys, hvalues⟩, (Except.ok.inj hv).symm⟩
    · rintro ⟨-, r, es, hr, h, rfl⟩
      exact ⟨r, hr, Traced.ok_bind.mpr ⟨es, ok_children.mpr ⟨h.keys, h.values⟩, rfl⟩⟩

namespace Assembled

variable {p : Property} {remote stored es : Entries Value}

theorem coerce_of_mem (h : p.Assembled remote stored es) {c : Property} (hc : c ∈ p.children) :
    ∃ v, (c.stateName, v) ∈ es ∧
      (coerce c (Value.field remote c.name) (Value.field stored c.stateName)).result = .ok v := by
  obtain ⟨hkeys, hvalues⟩ := h
  generalize p.children = cs at hc hkeys hvalues
  induction hvalues with
  | nil => cases hc
  | @cons d e cs es hd _ ih =>
    obtain ⟨k, v⟩ := e
    rw [Entries.keys_cons, List.map_cons, List.cons.injEq] at hkeys
    rcases List.mem_cons.mp hc with rfl | hc
    · exact ⟨v, by simp [hkeys.1], hd⟩
    · obtain ⟨w, hw, hcoerce⟩ := ih hc hkeys.2
      exact ⟨w, List.mem_cons_of_mem _ hw, hcoerce⟩

theorem ofList_eq (h : p.Assembled remote stored es) (hn : p.NamesDistinct) :
    Entries.ofList es = es := Entries.ofList_of_nodup (h.keys ▸ hn)

/-- Under the state name of a child stands the child's merged value. -/
theorem field_eq (h : p.Assembled remote stored es) (hn : p.NamesDistinct) {c : Property}
    (hc : c ∈ p.children) :
    (coerce c (Value.field remote c.name) (Value.field stored c.stateName)).result =
      .ok (Value.field es c.stateName) := by
  obtain ⟨v, hv, hcoerce⟩ := h.coerce_of_mem hc
  have hfield : Value.field es c.stateName = v := by
    rw [Value.field, Entries.get?_of_mem (h.keys ▸ hn) hv]
    rfl
  rw [hcoerce, hfield]

end Assembled

/-! ## What merged collections hold -/

theorem ok_mergeList {p : Property} {remote stored v : Value} :
    (p.mergeList remote stored).result = .ok v ↔
      ∃ rs vs, remoteItems p.name remote = .ok rs ∧
        List.Forall₂ (fun pair v => (p.mergeObject pair.1 pair.2).result = .ok v)
          (paired rs stored.items) vs ∧ v = .array vs := by
  rw [mergeList, Traced.ok_bind]
  constructor
  · rintro ⟨rs, hrs, h⟩
    obtain ⟨vs, hvs, hv⟩ := Traced.ok_bind.mp h
    exact ⟨rs, vs, hrs, Traced.ok_mapM.mp hvs, (Except.ok.inj hv).symm⟩
  · rintro ⟨rs, vs, hrs, hvs, rfl⟩
    exact ⟨rs, hrs, Traced.ok_bind.mpr ⟨vs, Traced.ok_mapM.mpr hvs, rfl⟩⟩

def setHashes (p : Property) : Hashes := hashes p.element p.correlationKey

def storedKey (p : Property) : List String := p.correlationKey.map (storedField p.element)

theorem setHashes_keyed {p : Property} (h : p.correlationKey ≠ []) : p.setHashes =
    ⟨Value.correlationHash p.correlationKey, Value.correlationHash p.storedKey⟩ := by
  rw [setHashes, hashes, if_neg (by simpa using h), storedKey]

theorem setHashes_whole {p : Property} (h : p.correlationKey = []) :
    p.setHashes = ⟨Value.hash, Value.hash⟩ := by
  rw [setHashes, hashes, h]
  rfl

theorem ok_mergeSet {p : Property} {remote stored v : Value} :
    (p.mergeSet remote stored).result = .ok v ↔
      ∃ rs vs, remoteItems p.name remote = .ok rs ∧
        (distinct p.name p.mergeObject (counterpart p.setHashes stored.items) [] rs).result =
          .ok vs ∧ v = .array vs := by
  rw [mergeSet, Traced.ok_bind]
  constructor
  · rintro ⟨rs, hrs, h⟩
    obtain ⟨vs, hvs, hv⟩ := Traced.ok_bind.mp h
    rw [set_eq] at hvs
    exact ⟨rs, vs, hrs, hvs, (Except.ok.inj hv).symm⟩
  · rintro ⟨rs, vs, hrs, hvs, rfl⟩
    refine ⟨rs, hrs, Traced.ok_bind.mpr ⟨vs, ?_, rfl⟩⟩
    rw [set_eq]
    exact hvs

inductive Coerced (p : Property) (remote stored : Value) : Value → Prop
  | writeOnly (hw : p.writeOnly = true) : Coerced p remote stored stored
  | object {v : Value} (hw : p.writeOnly = false) (hk : p.kind = .object)
    (h : (p.mergeObject remote stored).result = .ok v) : Coerced p remote stored v
  | list {v : Value} (hw : p.writeOnly = false) (hk : p.kind = .list)
    (he : p.element.isSome = true) (h : (p.mergeList remote stored).result = .ok v) :
    Coerced p remote stored v
  | set {v : Value} (hw : p.writeOnly = false) (hk : p.kind = .set)
    (he : p.element.isSome = true) (h : (p.mergeSet remote stored).result = .ok v) :
    Coerced p remote stored v
  | primitives {v : Value} (hw : p.writeOnly = false) (hk : p.kind = .list ∨ p.kind = .set)
    (he : p.element.isSome = false) (hi : p.itemKind.any Kind.isPrimitive = true)
    (h : Merge.primitives p.name remote = .ok v) : Coerced p remote stored v
  | scalar {v : Value} (hw : p.writeOnly = false) (hk : p.kind.isPrimitive = true)
    (h : Merge.scalar p.name p.kind remote = .ok v) : Coerced p remote stored v

theorem ok_coerce {p : Property} {remote stored v : Value} :
    (coerce p remote stored).result = .ok v ↔ p.Coerced remote stored v := by
  rw [coerce_eq]
  constructor
  · intro h
    by_cases hw : p.writeOnly = true
    · rw [if_pos hw] at h
      obtain rfl := Except.ok.inj h
      exact .writeOnly hw
    rw [if_neg hw] at h
    have hw := eq_false_of_ne_true hw
    have hplain {e : MergeError} (hk : p.kind = .list ∨ p.kind = .set)
        (he : ¬p.element.isSome = true)
        (h : (if p.itemKind.any Kind.isPrimitive then Traced.ofExcept (Merge.primitives p.name remote)
          else Traced.throw e : Merged Value).result = .ok v) : p.Coerced remote stored v := by
      split at h
      · exact .primitives hw hk (eq_false_of_ne_true he) ‹_› h
      · cases h
    split at h
    · rename_i hk
      exact .object hw hk h
    · rename_i hk
      split at h
      · exact .list hw hk ‹_› h
      · exact hplain (Or.inl hk) ‹_› h
    · rename_i hk
      split at h
      · exact .set hw hk ‹_› h
      · exact hplain (Or.inr hk) ‹_› h
    · refine .scalar hw ?_ h
      cases hk : p.kind <;> rw [hk] at h <;> first | rfl | cases h | simp_all
  · intro h
    cases h with
    | writeOnly hw =>
      rw [if_pos hw]
      rfl
    | object hw hk h =>
      rw [hw, hk]
      exact h
    | list hw hk he h =>
      rw [hw, hk, he]
      exact h
    | set hw hk he h =>
      rw [hw, hk, he]
      exact h
    | primitives hw hk he hi h =>
      rw [hw, he, hi]
      rcases hk with hk | hk <;> rw [hk] <;> exact h
    | scalar hw hk h =>
      rw [hw]
      cases hkind : p.kind <;> rw [hkind] at hk h <;> first | exact h | cases hk

end Property

end Reconciliation
