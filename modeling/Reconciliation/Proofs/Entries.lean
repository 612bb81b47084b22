import Mathlib.Data.List.Basic
import Mathlib.Data.List.Dedup
import Mathlib.Data.List.Forall2
import Mathlib.Data.List.Nodup
import Mathlib.Data.List.Perm.Basic
import Reconciliation.Value.Entries

/-! # Laws of keyed entries

Reading after writing, and the entries in ascending order of their keys. Sorting is stable, so it
keeps what every key reads, also where a key occurs twice.
-/
namespace Reconciliation.Entries

variable {α β : Type}

@[simp] theorem get?_nil (k : String) : get? ([] : Entries α) k = none := rfl

theorem get?_cons (k l : String) (v : α) (es : Entries α) :
    get? ((l, v) :: es) k = if k = l then some v else get? es k := by
  simp only [get?, List.lookup_cons]
  by_cases h : k = l
  · simp [h]
  · simp [h, beq_eq_false_iff_ne.mpr h]

@[simp] theorem keys_nil : keys ([] : Entries α) = [] := rfl

@[simp] theorem keys_cons (k : String) (v : α) (es : Entries α) :
    keys ((k, v) :: es) = k :: keys es := rfl

theorem get?_eq_none_iff (es : Entries α) (k : String) : es.get? k = none ↔ k ∉ es.keys := by
  induction es with
  | nil => simp
  | cons e es ih =>
    obtain ⟨l, v⟩ := e
    rw [get?_cons]
    by_cases h : k = l <;> simp [h, ih]

theorem has_iff (es : Entries α) (k : String) : es.has k = true ↔ k ∈ es.keys := by
  rw [has, Option.isSome_iff_ne_none, ne_eq, get?_eq_none_iff, not_not]

theorem mem_of_get? {es : Entries α} {k : String} {v : α} (h : es.get? k = some v) :
    (k, v) ∈ es := by
  induction es with
  | nil => simp at h
  | cons e es ih =>
    obtain ⟨l, w⟩ := e
    rw [get?_cons] at h
    by_cases hk : k = l
    · simp_all
    · exact List.mem_cons_of_mem _ (ih (by simpa [hk] using h))

/-- A search that goes through the entries one by one finds what the first one with the key has. -/
theorem search_eq_elim {key : String} {found : α → β} {missing : β}
    {search : List (String × α) → β} (hnil : search [] = missing)
    (hcons : ∀ k v es, search ((k, v) :: es) = if k = key then found v else search es)
    (es : Entries α) : search es = (es.get? key).elim missing found := by
  induction es with
  | nil => exact hnil
  | cons e es ih =>
    obtain ⟨k, v⟩ := e
    rw [hcons, get?_cons, ih]
    by_cases hk : k = key
    · rw [if_pos hk, if_pos hk.symm, Option.elim_some]
    · rw [if_neg hk, if_neg (Ne.symm hk)]

theorem get?_of_mem {es : Entries α} (hn : es.keys.Nodup) {k : String} {v : α}
    (h : (k, v) ∈ es) : es.get? k = some v := by
  induction es with
  | nil => cases h
  | cons e es ih =>
    obtain ⟨l, w⟩ := e
    rw [keys_cons, List.nodup_cons] at hn
    rw [get?_cons]
    rcases List.mem_cons.mp h with h | h
    · simp_all
    · have hk : k ≠ l := fun hk => hn.1 (hk ▸ List.mem_map_of_mem (f := Prod.fst) h)
      rw [if_neg hk, ih hn.2 h]

/-! ## Entries side by side -/

variable {R S : α → β → Prop} {es : Entries α} {fs : Entries β}

theorem rel_of_rel (h : ∀ k, Option.Rel R (es.get? k) (fs.get? k))
    (hRS : ∀ k v w, es.get? k = some v → fs.get? k = some w → R v w → S v w) (k : String) :
    Option.Rel S (es.get? k) (fs.get? k) := by
  have hk := h k
  cases hv : es.get? k <;> cases hw : fs.get? k <;> rw [hv, hw] at hk
  case none.none => exact .none
  case some.some => exact .some (hRS k _ _ hv hw (Option.rel_some_some.mp hk))
  all_goals cases hk

theorem exists_left {k : String} {w : β} (h : Option.Rel R (es.get? k) (fs.get? k))
    (hw : fs.get? k = some w) : ∃ v, es.get? k = some v ∧ R v w := by
  rw [hw] at h
  generalize es.get? k = x at h
  cases h with
  | some hvw => exact ⟨_, rfl, hvw⟩

theorem exists_right {k : String} {v : α} (h : Option.Rel R (es.get? k) (fs.get? k))
    (hv : es.get? k = some v) : ∃ w, fs.get? k = some w ∧ R v w := by
  rw [hv] at h
  generalize fs.get? k = y at h
  cases h with
  | some hvw => exact ⟨_, rfl, hvw⟩

theorem rel_and_left {P : α → Prop} (hn : es.keys.Nodup) :
    (∀ k, Option.Rel (fun v w => P v ∧ R v w) (es.get? k) (fs.get? k)) ↔
      (∀ e ∈ es, P e.2) ∧ ∀ k, Option.Rel R (es.get? k) (fs.get? k) := by
  constructor
  · intro h
    refine ⟨fun e he => ?_, rel_of_rel h fun _ _ _ _ _ hvw => hvw.2⟩
    obtain ⟨w, -, hP, -⟩ := exists_right (h e.1) (get?_of_mem hn he)
    exact hP
  · rintro ⟨hP, h⟩
    exact rel_of_rel h fun k v w hv _ hvw => ⟨hP _ (mem_of_get? hv), hvw⟩

theorem rel_of_forall₂ (hkeys : es.keys = fs.keys)
    (h : List.Forall₂ R (es.map Prod.snd) (fs.map Prod.snd)) (k : String) :
    Option.Rel R (es.get? k) (fs.get? k) := by
  induction es generalizing fs with
  | nil =>
    cases fs with
    | nil => exact .none
    | cons f fs => cases h
  | cons e es ih =>
    cases fs with
    | nil => cases h
    | cons f fs =>
      obtain ⟨l, v⟩ := e
      obtain ⟨m, w⟩ := f
      obtain ⟨rfl, hrest⟩ := List.cons.inj hkeys
      obtain ⟨hvw, hvalues⟩ := List.forall₂_cons.mp h
      rw [get?_cons, get?_cons]
      by_cases hk : k = l
      · rw [if_pos hk, if_pos hk]
        exact .some hvw
      · rw [if_neg hk, if_neg hk]
        exact ih hrest hvalues

/-- Either all values under one key are related in one way, or two of them are related in the
other. -/
theorem rel_or (h : ∀ k, Option.Rel (fun v w => R v w ∨ S v w) (es.get? k) (fs.get? k)) :
    (∀ k, Option.Rel R (es.get? k) (fs.get? k)) ∨
      ∃ k v w, es.get? k = some v ∧ fs.get? k = some w ∧ S v w := by
  by_cases hS : ∃ k v w, es.get? k = some v ∧ fs.get? k = some w ∧ S v w
  · exact Or.inr hS
  · refine Or.inl (rel_of_rel h fun k v w hv hw hvw => hvw.resolve_right fun hs => ?_)
    exact hS ⟨k, v, w, hv, hw, hs⟩

/-! ## Writing -/

theorem get?_set (es : Entries α) (k l : String) (v : α) :
    (es.set k v).get? l = if l = k then some v else es.get? l := by
  induction es with
  | nil => simp [set, get?_cons]
  | cons e es ih =>
    obtain ⟨m, w⟩ := e
    by_cases hm : m = k
    · subst m
      by_cases hl : l = k <;> simp [set, get?_cons, hl]
    · by_cases hl : l = m
      · subst l
        simp [set, get?_cons, hm]
      · simp [set, get?_cons, hm, hl, ih]

theorem keys_set (es : Entries α) (k : String) (v : α) :
    (es.set k v).keys = if k ∈ es.keys then es.keys else es.keys ++ [k] := by
  induction es with
  | nil => simp [set]
  | cons e es ih =>
    obtain ⟨l, w⟩ := e
    by_cases hl : l = k
    · simp [set, hl]
    · have hk : ¬k = l := fun h => hl h.symm
      by_cases hm : k ∈ keys es <;> simp [set, hl, hk, ih, hm]

theorem nodup_set {es : Entries α} (hn : es.keys.Nodup) (k : String) (v : α) :
    (es.set k v).keys.Nodup := by
  rw [keys_set]
  split
  · exact hn
  · rename_i hk
    rw [List.nodup_append]
    refine ⟨hn, by simp, ?_⟩
    intro a ha b hb hab
    exact hk (by simp_all)

theorem mem_set {es : Entries α} {k : String} {v : α} {e : String × α} (h : e ∈ es.set k v) :
    e = (k, v) ∨ e ∈ es := by
  induction es with
  | nil => exact Or.inl (by simpa [set] using h)
  | cons f es ih =>
    obtain ⟨l, w⟩ := f
    by_cases hl : l = k
    · simp only [set, hl, if_true, List.mem_cons] at h
      exact h.imp id (List.mem_cons_of_mem _)
    · simp only [set, hl, if_false, List.mem_cons] at h
      rcases h with rfl | h
      · exact Or.inr (by simp)
      · exact (ih h).imp id (List.mem_cons_of_mem _)

theorem set_of_get? {es : Entries α} {k : String} {v : α} (h : es.get? k = some v) :
    es.set k v = es := by
  induction es with
  | nil => simp at h
  | cons e es ih =>
    obtain ⟨l, w⟩ := e
    rw [get?_cons] at h
    by_cases hl : l = k
    · simp_all [set]
    · have hk : ¬k = l := fun h => hl h.symm
      simp only [hk, if_false] at h
      simp [set, hl, ih h]

theorem set_of_not_mem {es : Entries α} {k : String} (h : k ∉ es.keys) (v : α) :
    es.set k v = es ++ [(k, v)] := by
  induction es with
  | nil => rfl
  | cons e es ih =>
    obtain ⟨l, w⟩ := e
    rw [keys_cons, List.mem_cons, not_or] at h
    simp [set, ih h.2, Ne.symm h.1]

theorem foldl_set {done es : Entries α} (hn : keys (done ++ es) |>.Nodup) :
    es.foldl (fun done e => done.set e.1 e.2) done = done ++ es := by
  induction es generalizing done with
  | nil => simp
  | cons e es ih =>
    have hk : e.1 ∉ done.keys := by
      intro hk
      rw [keys, List.map_append, List.nodup_append] at hn
      exact hn.2.2 _ hk _ (by simp) rfl
    rw [List.foldl_cons, set_of_not_mem hk, ih (by simpa using hn)]
    simp

theorem ofList_of_nodup {es : List (String × α)} (hn : (keys es).Nodup) : ofList es = es :=
  foldl_set (by rwa [List.nil_append])

theorem nodup_foldl_set (es : List (String × α)) {done : Entries α} (hn : done.keys.Nodup) :
    (es.foldl (fun done e => done.set e.1 e.2) done).keys.Nodup := by
  induction es generalizing done with
  | nil => exact hn
  | cons e es ih => exact ih (nodup_set hn e.1 e.2)

theorem nodup_ofList (es : List (String × α)) : (ofList es).keys.Nodup :=
  nodup_foldl_set es (by simp)

theorem mem_foldl_set {es : List (String × α)} {done : Entries α} {e : String × α}
    (h : e ∈ es.foldl (fun done e => done.set e.1 e.2) done) : e ∈ done ∨ e ∈ es := by
  induction es generalizing done with
  | nil => exact Or.inl h
  | cons f es ih =>
    rcases ih h with h | h
    · rcases mem_set h with rfl | h
      · exact Or.inr (by simp)
      · exact Or.inl h
    · exact Or.inr (List.mem_cons_of_mem _ h)

theorem mem_ofList {es : List (String × α)} {e : String × α} (h : e ∈ ofList es) : e ∈ es :=
  (mem_foldl_set h).resolve_left (by simp)

theorem get?_append (es fs : Entries α) (k : String) :
    get? (es ++ fs) k = (es.get? k).or (fs.get? k) := List.lookup_append

theorem get?_foldl_set (es : List (String × α)) (done : Entries α) (k : String) :
    (es.foldl (fun done e => done.set e.1 e.2) done).get? k =
      (get? es.reverse k).or (done.get? k) := by
  induction es generalizing done with
  | nil => rfl
  | cons e es ih =>
    obtain ⟨l, v⟩ := e
    rw [List.foldl_cons, ih, get?_set, List.reverse_cons, get?_append, get?_cons, get?_nil]
    by_cases hk : k = l <;> simp [hk]

/-- The last writer of a key wins. -/
theorem get?_ofList (es : List (String × α)) (k : String) :
    (ofList es).get? k = get? es.reverse k := by
  rw [ofList, get?_foldl_set, get?_nil, Option.or_none]

theorem length_ofList (es : List (String × α)) : (ofList es).length = (keys es).dedup.length := by
  have hmem (k : String) : k ∈ (ofList es).keys ↔ k ∈ (keys es).dedup := by
    rw [List.mem_dedup, ← not_iff_not, ← get?_eq_none_iff, get?_ofList, get?_eq_none_iff, keys, keys,
      List.map_reverse, List.mem_reverse]
  have hperm := (List.perm_ext_iff_of_nodup (nodup_ofList es) (List.nodup_dedup _)).mpr hmem
  rw [← hperm.length_eq, keys, List.length_map]

/-! ## The entries with other values under the same keys -/

def mapKeyed (f : String → α → β) (es : Entries α) : Entries β := es.map fun e => (e.1, f e.1 e.2)

@[simp] theorem mapKeyed_nil (f : String → α → β) : mapKeyed f [] = [] := rfl

@[simp] theorem mapKeyed_cons (f : String → α → β) (k : String) (v : α) (es : Entries α) :
    mapKeyed f ((k, v) :: es) = (k, f k v) :: mapKeyed f es := rfl

theorem get?_mapKeyed (f : String → α → β) (es : Entries α) (k : String) :
    (mapKeyed f es).get? k = (es.get? k).map (f k) := by
  induction es with
  | nil => rfl
  | cons e es ih =>
    obtain ⟨l, v⟩ := e
    by_cases h : k = l <;> simp [get?_cons, h, ih]

theorem mapKeyed_set (f : String → α → β) (es : Entries α) (k : String) (v : α) :
    mapKeyed f (es.set k v) = (mapKeyed f es).set k (f k v) := by
  induction es with
  | nil => rfl
  | cons e es ih =>
    obtain ⟨l, w⟩ := e
    by_cases h : l = k <;> simp [set, h, ih]

theorem mapKeyed_ofList (f : String → α → β) (es : List (String × α)) :
    mapKeyed f (ofList es) = ofList (mapKeyed f es) := by
  suffices ∀ done : Entries α,
      mapKeyed f (es.foldl (fun done e => done.set e.1 e.2) done) =
        (mapKeyed f es).foldl (fun done e => done.set e.1 e.2) (mapKeyed f done) from this []
  induction es with
  | nil => intro done; rfl
  | cons e es ih =>
    intro done
    obtain ⟨k, v⟩ := e
    simp only [List.foldl_cons, mapKeyed_cons]
    rw [ih, mapKeyed_set]

def mapValues (f : α → β) (es : Entries α) : Entries β := es.map fun e => (e.1, f e.2)

@[simp] theorem mapValues_nil (f : α → β) : mapValues f [] = [] := rfl

@[simp] theorem mapValues_cons (f : α → β) (k : String) (v : α) (es : Entries α) :
    mapValues f ((k, v) :: es) = (k, f v) :: mapValues f es := rfl

@[simp] theorem keys_mapValues (f : α → β) (es : Entries α) : (mapValues f es).keys = es.keys := by
  simp [mapValues, keys]

theorem get?_mapValues (f : α → β) (es : Entries α) (k : String) :
    (mapValues f es).get? k = (es.get? k).map f := get?_mapKeyed (fun _ => f) es k

theorem mapValues_ofList (f : α → β) (es : List (String × α)) :
    mapValues f (ofList es) = ofList (mapValues f es) := mapKeyed_ofList (fun _ => f) es

/-! ## Sorting -/

@[simp] theorem sorted_nil : sorted ([] : Entries α) = [] := rfl

theorem sorted_cons (e : String × α) (es : Entries α) :
    sorted (e :: es) = insertByKey e (sorted es) := rfl

theorem insertByKey_perm (e : String × α) (es : Entries α) : (insertByKey e es).Perm (e :: es) := by
  induction es with
  | nil => exact List.Perm.refl _
  | cons f es ih =>
    simp only [insertByKey]
    split
    · exact List.Perm.refl _
    · exact (ih.cons f).trans (List.Perm.swap e f es)

theorem sorted_perm (es : Entries α) : es.sorted.Perm es := by
  induction es with
  | nil => exact List.Perm.refl _
  | cons e es ih => exact (insertByKey_perm e _).trans (ih.cons e)

theorem keys_sorted_perm (es : Entries α) : es.sorted.keys.Perm es.keys := (sorted_perm es).map _

theorem nodup_sorted {es : Entries α} (hn : es.keys.Nodup) : es.sorted.keys.Nodup :=
  (keys_sorted_perm es).nodup_iff.mpr hn

theorem mem_sorted {es : Entries α} {e : String × α} : e ∈ es.sorted ↔ e ∈ es :=
  (sorted_perm es).mem_iff

theorem get?_insertByKey (e : String × α) (es : Entries α) (k : String) :
    (insertByKey e es).get? k = if k = e.1 then some e.2 else es.get? k := by
  induction es with
  | nil => exact get?_cons k e.1 e.2 []
  | cons f es ih =>
    obtain ⟨l, w⟩ := f
    simp only [insertByKey]
    split
    · exact get?_cons k e.1 e.2 _
    · rename_i hle
      rw [get?_cons, ih, get?_cons]
      by_cases hk : k = e.1
      · have hl : k ≠ l := fun h => hle ((hk.symm.trans h) ▸ String.le_refl e.1)
        simp [hk, hk ▸ hl]
      · simp [hk]

@[simp] theorem get?_sorted (es : Entries α) (k : String) : es.sorted.get? k = es.get? k := by
  induction es with
  | nil => rfl
  | cons e es ih => rw [sorted_cons, get?_insertByKey, ih, get?_cons]

def Ascending (es : Entries α) : Prop := es.Pairwise fun e f => e.1 ≤ f.1

theorem ascending_insertByKey {e : String × α} {es : Entries α} (h : Ascending es) :
    Ascending (insertByKey e es) := by
  induction es with
  | nil => simp [insertByKey, Ascending]
  | cons f es ih =>
    obtain ⟨hf, hes⟩ := List.pairwise_cons.mp h
    simp only [insertByKey]
    split
    · rename_i hle
      refine List.pairwise_cons.mpr ⟨?_, h⟩
      intro g hg
      rcases List.mem_cons.mp hg with rfl | hg
      · exact hle
      · exact String.le_trans hle (hf g hg)
    · rename_i hle
      refine List.pairwise_cons.mpr ⟨?_, ih hes⟩
      intro g hg
      rcases List.mem_cons.mp ((insertByKey_perm e es).mem_iff.mp hg) with rfl | hg
      · exact (String.le_total f.1 g.1).resolve_right hle
      · exact hf g hg

theorem ascending_sorted (es : Entries α) : Ascending es.sorted := by
  induction es with
  | nil => exact List.Pairwise.nil
  | cons e es ih => exact ascending_insertByKey ih

theorem sorted_of_ascending {es : Entries α} (h : Ascending es) : es.sorted = es := by
  induction es with
  | nil => rfl
  | cons e es ih =>
    obtain ⟨he, hes⟩ := List.pairwise_cons.mp h
    rw [sorted_cons, ih hes]
    cases es with
    | nil => rfl
    | cons f es => simp [insertByKey, he f (by simp)]

@[simp] theorem sorted_sorted (es : Entries α) : es.sorted.sorted = es.sorted :=
  sorted_of_ascending (ascending_sorted es)

/-- Entries with different keys that read alike are the same in some order. -/
theorem perm_of_get? {es fs : Entries α} (he : es.keys.Nodup) (hf : fs.keys.Nodup)
    (h : ∀ k, es.get? k = fs.get? k) : es.Perm fs := by
  apply (List.perm_ext_iff_of_nodup he.of_map hf.of_map).mpr
  intro e
  constructor
  · intro hm
    exact mem_of_get? ((h e.1).symm.trans (get?_of_mem he hm))
  · intro hm
    exact mem_of_get? ((h e.1).trans (get?_of_mem hf hm))

theorem get?_perm {es fs : Entries α} (hn : es.keys.Nodup) (h : es.Perm fs) (k : String) :
    es.get? k = fs.get? k := by
  have hkeys : es.keys.Perm fs.keys := h.map Prod.fst
  cases hv : es.get? k with
  | none =>
    have hk : k ∉ es.keys := (get?_eq_none_iff es k).mp hv
    exact ((get?_eq_none_iff fs k).mpr fun hm => hk (hkeys.mem_iff.mpr hm)).symm
  | some v => exact (get?_of_mem (hkeys.nodup_iff.mp hn) (h.mem_iff.mp (mem_of_get? hv))).symm

/-- Entries with different keys that read alike have one ascending order. -/
theorem sorted_eq_of_get? {es fs : Entries α} (he : es.keys.Nodup) (hf : fs.keys.Nodup)
    (h : ∀ k, es.get? k = fs.get? k) : es.sorted = fs.sorted := by
  have hp := perm_of_get? he hf h
  refine List.Perm.eq_of_pairwise ?_ (ascending_sorted es : List.Pairwise _ _)
    (ascending_sorted fs : List.Pairwise _ _)
    ((sorted_perm es).trans (hp.trans (sorted_perm fs).symm))
  intro e f hm hm' hef hfe
  have hk := String.le_antisymm hef hfe
  have hl := get?_of_mem he (mem_sorted.mp hm)
  rw [hk, get?_of_mem he (hp.mem_iff.mpr (mem_sorted.mp hm'))] at hl
  exact Prod.ext hk (Option.some.inj hl).symm

theorem mapValues_insertByKey (f : α → β) (e : String × α) (es : Entries α) :
    mapValues f (insertByKey e es) = insertByKey (e.1, f e.2) (mapValues f es) := by
  induction es with
  | nil => rfl
  | cons g es ih =>
    obtain ⟨k, v⟩ := g
    simp only [insertByKey, mapValues_cons]
    split
    · rfl
    · rw [mapValues_cons, ih]

theorem mapValues_sorted (f : α → β) (es : Entries α) :
    mapValues f es.sorted = (mapValues f es).sorted := by
  induction es with
  | nil => rfl
  | cons e es ih =>
    obtain ⟨k, v⟩ := e
    rw [sorted_cons, mapValues_insertByKey, ih, mapValues_cons, sorted_cons]

end Reconciliation.Entries
