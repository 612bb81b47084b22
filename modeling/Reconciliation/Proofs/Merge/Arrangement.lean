import Mathlib.Data.List.Find
import Reconciliation.Proofs.Merge.Recognition

/-! # Arranging a list again

The merged list stands in the order in which the first read arranged the remote items. The next read
finds each of them at its place, if the comparison recognises what the merge made of them.
-/
namespace Reconciliation

namespace Merge

variable {same : Value → Value → Bool} {stored remote : List Value}

def Fresh (same : Value → Value → Bool) (stored : List Value) (r : Value) : Prop :=
  ∀ s ∈ stored, same s r = false

/-- From a place on, what is merged finds no remote item. The items that nothing merged finds are
`rest`. -/
structure Lost (same : Value → Value → Bool) (remote merged : List Value) (n : Nat)
    (rest : List Value) : Prop where
  blind : ∀ m ∈ merged.drop n, ∀ r ∈ remote, same m r = false
  unseen : (remote.filter fun r => !merged.any fun m => same m r) = rest

/-- An item that is taken for an arranged one: itself, or another fresh one that some stored item
would be the same as, too. -/
def StandsIn (same : Value → Value → Bool) (stored remote : List Value) (r r' : Value) : Prop :=
  r' = r ∨ (r' ∈ remote ∧ Fresh same stored r ∧ Fresh same stored r' ∧
    ∃ m, same m r = true ∧ same m r' = true)

theorem mem_arranged {r : Value} (h : r ∈ arranged same stored remote) :
    (∃ s ∈ stored, remote.find? (same s) = some r) ∨ (r ∈ remote ∧ Fresh same stored r) := by
  rw [arranged] at h
  rcases List.mem_append.mp h with h | h
  · exact Or.inl (List.mem_filterMap.mp h)
  · obtain ⟨hr, hnot⟩ := List.mem_filter.mp h
    refine Or.inr ⟨hr, fun s hs => ?_⟩
    rw [Bool.not_eq_true', List.any_eq_false] at hnot
    exact eq_false_of_ne_true (hnot s hs)

section Link

variable (hlink : ∀ r ∈ remote, ∀ s s' r', same s r = true → same s' r = true →
  same s' r' = true → same s r' = true)
include hlink

/-- Stored items that are the same as one remote item find the same one. -/
theorem find?_link {s s' r : Value} (hr : r ∈ remote) (h : same s r = true)
    (h' : same s' r = true) : remote.find? (same s) = remote.find? (same s') := by
  refine List.find?_congr fun y _ => ?_
  rw [Bool.eq_iff_iff]
  exact ⟨hlink r hr s' s y h' h, hlink r hr s s' y h h'⟩

/-- Whatever recognises the arranged items recognises every remote item. -/
theorem arranged_covers {r : Value} (hr : r ∈ remote) :
    ∃ y ∈ arranged same stored remote, ∀ m, same m y = true → same m r = true := by
  by_cases hfresh : ∃ s ∈ stored, same s r = true
  · obtain ⟨s, hs, hsr⟩ := hfresh
    obtain ⟨y, hy⟩ := Option.isSome_iff_exists.mp (List.find?_isSome.mpr ⟨r, hr, hsr⟩)
    have hmem : y ∈ arranged same stored remote :=
      List.mem_append_left _ (List.mem_filterMap.mpr ⟨s, hs, hy⟩)
    refine ⟨y, hmem, fun m hm => ?_⟩
    exact hlink y (List.mem_of_find?_eq_some hy) m s r hm (List.find?_some hy) hsr
  · refine ⟨r, List.mem_append_right _ (List.mem_filter.mpr ⟨hr, ?_⟩), fun _ h => h⟩
    rw [Bool.not_eq_true', List.any_eq_false]
    exact fun s hs hsr => hfresh ⟨s, hs, hsr⟩

/-- What is found for a recognised item may stand in for it. -/
theorem find?_recognised {r m : Value} (hr : r ∈ arranged same stored remote)
    (hm : same m r = true) :
    ∃ r', remote.find? (same m) = some r' ∧ StandsIn same stored remote r r' := by
  have hmem := mem_of_mem_arranged hr
  obtain ⟨r', hr'⟩ := Option.isSome_iff_exists.mp (List.find?_isSome.mpr ⟨r, hmem, hm⟩)
  refine ⟨r', hr', ?_⟩
  rcases mem_arranged hr with ⟨s, -, hs⟩ | ⟨-, hfresh⟩
  · rw [find?_link hlink hmem hm (List.find?_some hs), hs] at hr'
    exact Or.inl (Option.some.inj hr').symm
  · have hmem' := List.mem_of_find?_eq_some hr'
    have hmr' := List.find?_some hr'
    refine Or.inr ⟨hmem', hfresh, fun s hs => ?_, m, hm, hmr'⟩
    by_contra hne
    have hsr := hlink r' hmem' s m r (eq_true_of_ne_false hne) hmr' hm
    rw [hfresh s hs] at hsr
    cases hsr

/-- The items that were found come first again, and those that were lost follow. If none was lost,
what is left over may find items again. -/
theorem arranged_again {merged : List Value} {n : Nat}
    (h : List.Forall₂ (fun r m => same m r = true) ((arranged same stored remote).take n)
      (merged.take n))
    (hlost : n < (arranged same stored remote).length →
      Lost same remote merged n ((arranged same stored remote).drop n)) :
    ∃ again rest, arranged same merged remote = again ++ rest ∧
      List.Forall₂ (StandsIn same stored remote) (arranged same stored remote) again ∧
      rest.Sublist ((merged.drop (arranged same stored remote).length).filterMap
        fun m => remote.find? (same m)) := by
  have hfound : ∀ rs ms, (∀ r ∈ rs, r ∈ arranged same stored remote) →
      List.Forall₂ (fun r m => same m r = true) rs ms →
      List.Forall₂ (StandsIn same stored remote) rs
        (ms.filterMap fun m => remote.find? (same m)) := by
    intro rs ms hrs hrm
    induction hrm with
    | nil => exact .nil
    | @cons r m rs ms hmr _ ih =>
      obtain ⟨r', hr', hin⟩ := find?_recognised hlink (hrs r (by simp)) hmr
      rw [List.filterMap_cons, hr']
      exact .cons hin (ih fun r hr => hrs r (List.mem_cons_of_mem _ hr))
  have hfirst := hfound _ _ (fun _ hr => List.mem_of_mem_take hr) h
  have hparts : arranged same merged remote =
      (merged.take n).filterMap (fun m => remote.find? (same m)) ++
        ((merged.drop n).filterMap (fun m => remote.find? (same m)) ++
          remote.filter fun r => !merged.any fun m => same m r) := by
    rw [arranged, ← List.append_assoc, ← List.filterMap_append, List.take_append_drop]
  by_cases hn : n < (arranged same stored remote).length
  · obtain ⟨hblind, hunseen⟩ := hlost hn
    have hnone : (merged.drop n).filterMap (fun m => remote.find? (same m)) = [] := by
      rw [List.filterMap_eq_nil_iff]
      intro m hm
      rw [List.find?_eq_none]
      intro r hr
      simp [hblind m hm r hr]
    refine ⟨(merged.take n).filterMap (fun m => remote.find? (same m)) ++
      (arranged same stored remote).drop n, [], ?_, ?_, List.nil_sublist _⟩
    · rw [hparts, hnone, hunseen, List.nil_append, List.append_nil]
    · have hsame : List.Forall₂ (StandsIn same stored remote)
          ((arranged same stored remote).drop n) ((arranged same stored remote).drop n) :=
        List.forall₂_same.mpr fun _ _ => Or.inl rfl
      simpa only [List.take_append_drop] using List.rel_append hfirst hsame
  · have hn := Nat.le_of_not_lt hn
    rw [List.take_of_length_le hn] at h hfirst
    have hnone : (remote.filter fun r => !merged.any fun m => same m r) = [] := by
      rw [List.filter_eq_nil_iff]
      intro r hr hnot
      obtain ⟨y, hy, hcover⟩ : ∃ y ∈ arranged same stored remote,
          ∀ m, same m y = true → same m r = true := arranged_covers hlink hr
      obtain ⟨m, hm, hmy⟩ := Lists.exists_right h hy
      rw [Bool.not_eq_true', List.any_eq_false] at hnot
      exact hnot m (List.mem_of_mem_take hm) (hcover m hmy)
    refine ⟨_, _, ?_, hfirst, List.Sublist.filterMap _ (List.drop_sublist_drop_left _ hn)⟩
    rw [hparts, hnone, List.append_nil]

end Link

end Merge

namespace Property

open Merge

/-- Two remote items that come to the same: objects that are merged alike, and other items that
differ at most in the order of entries. -/
def Interchangeable (p : Property) (r r' : Value) : Prop :=
  if p.element.isSome then p.MergedAlike r r' else Value.SameTree r r'

/-- A list in stored order is arranged the same way again: its first items are found, the others
are lost. -/
structure ArrangesAgain (p : Property) (n : Nat) (remote stored : List Value) : Prop where
  within : n ≤ (arranged p.sameItem stored remote).length
  /-- An object that is found is stored as it is, next to what stands at its place. -/
  kept : p.element.isSome = true → ∀ (k : Nat) r, k < n →
    (arranged p.sameItem stored remote)[k]? = some r →
    r.isNull = false ∧ p.ElementAlong Kept r ((stored[k]?).getD .null)
  /-- The other objects are not found in what is merged. -/
  lost : p.element.isSome = true → n < (arranged p.sameItem stored remote).length →
    ∀ merged, (p.mergeList (.array (arranged p.sameItem stored remote)) (.array stored)).result =
      .ok (.array merged) →
    Lost p.sameItem remote merged n ((arranged p.sameItem stored remote).drop n)
  /-- New items that one stored item would be the same as come to the same. -/
  fresh : ∀ r ∈ remote, ∀ r' ∈ remote, Fresh p.sameItem stored r → Fresh p.sameItem stored r' →
    (∃ s, p.sameItem s r = true ∧ p.sameItem s r' = true) → p.Interchangeable r r'
  /-- An object that is the same as what is left of one that is gone is merged like null. -/
  leftOver : p.element.isSome = true → ∀ (k : Nat) l,
    (arranged p.sameItem stored remote).length ≤ k → stored[k]? = some l →
    ∀ v, (p.mergeObject .null l).result = .ok v → ∀ r ∈ remote, p.sameItem v r = true →
      p.MergedAlike .null r

theorem links_of_keysDistinct {p : Property} {remote : List Value}
    (h : ∀ r ∈ remote, r.keysDistinct = true) : ∀ r ∈ remote, ∀ s s' r', p.sameItem s r = true →
      p.sameItem s' r = true → p.sameItem s' r' = true → p.sameItem s r' = true := by
  intro r hr s s' r'
  exact sameItem_link (fun c _ => sameField_link c) (h r hr)

section Again

variable {p : Property} {n : Nat} {remote stored merged : List Value}
  (he : p.element.isSome = true) (ha : p.ArrangesAgain n remote stored)
  (hmerged : ∀ (k : Nat) v, merged[k]? = some v →
    (p.mergeObject (((arranged p.sameItem stored remote)[k]?).getD .null)
      ((stored[k]?).getD .null)).result = .ok v)
  (hlength : merged.length = max (arranged p.sameItem stored remote).length stored.length)
include he ha hmerged hlength

/-- Each of the first remote items is recognised in what was merged at its place. -/
theorem sameItem_arranged (hn : p.Throughout NamesDistinct)
    (hk : ∀ r ∈ remote, r.keysDistinct = true) (hf : ∀ r ∈ remote, r.nanFree = true) :
    List.Forall₂ (fun r m => p.sameItem m r = true)
      ((arranged p.sameItem stored remote).take n) (merged.take n) := by
  have hle := ha.within
  refine Lists.forall₂_of_getElem? (by simp only [List.length_take]; omega) fun k r m hr hm => ?_
  have hlt : k < n := by
    have := (List.getElem?_eq_some_iff.mp hr).1
    rw [List.length_take] at this
    omega
  rw [List.getElem?_take_of_lt hlt] at hr hm
  obtain ⟨hnull, hkept⟩ := ha.kept he k r hlt hr
  have hmerge := hmerged k m hm
  rw [hr, Option.getD_some] at hmerge
  have hmem := mem_of_mem_arranged (List.mem_of_getElem? hr)
  exact sameItem_of_kept hn (hk r hmem) (hf r hmem) hnull hkept hmerge

/-- An item that what is left over finds is merged like null. -/
theorem mergedAlike_leftOver {r : Value}
    (hr : r ∈ (merged.drop (arranged p.sameItem stored remote).length).filterMap
      fun m => remote.find? (p.sameItem m)) : p.MergedAlike .null r := by
  obtain ⟨m, hm, hfind⟩ := List.mem_filterMap.mp hr
  obtain ⟨i, hi⟩ := List.getElem?_of_mem hm
  rw [List.getElem?_drop] at hi
  have hlt := (List.getElem?_eq_some_iff.mp hi).1
  have hl := List.getElem?_eq_getElem
    (show (arranged p.sameItem stored remote).length + i < stored.length by omega)
  have hmerge := hmerged _ m hi
  rw [List.getElem?_eq_none (Nat.le_add_right _ _), hl, Option.getD_none,
    Option.getD_some] at hmerge
  exact ha.leftOver he _ _ (Nat.le_add_right _ _) hl m hmerge r
    (List.mem_of_find?_eq_some hfind) (List.find?_some hfind)

/-- At every place stands an item that is merged like the one that stood there before. -/
theorem mergedAlike_again {again rest : List Value}
    (hagain : List.Forall₂ (StandsIn p.sameItem stored remote)
      (arranged p.sameItem stored remote) again)
    (hrest : rest.Sublist ((merged.drop (arranged p.sameItem stored remote).length).filterMap
      fun m => remote.find? (p.sameItem m))) (k : Nat) :
    p.MergedAlike (((arranged p.sameItem stored remote)[k]?).getD .null)
      (((again ++ rest)[k]?).getD .null) := by
  have hlengths := hagain.length_eq
  by_cases hlt : k < (arranged p.sameItem stored remote).length
  · have hr := List.getElem?_eq_getElem hlt
    obtain ⟨r', hr', hin⟩ := Lists.getElem?_left hagain hr
    rw [List.getElem?_append_left (hlengths ▸ hlt), hr, hr', Option.getD_some, Option.getD_some]
    rcases hin with rfl | ⟨hmem', hfresh, hfresh', hm⟩
    · exact fun _ _ h => h
    · have hmem := mem_of_mem_arranged (List.mem_of_getElem? hr)
      have hcome := ha.fresh _ hmem r' hmem' hfresh hfresh' hm
      rwa [Interchangeable, if_pos he] at hcome
  · have hle := Nat.le_of_not_lt hlt
    rw [List.getElem?_eq_none hle, Option.getD_none, List.getElem?_append_right (hlengths ▸ hle)]
    cases hr : rest[k - again.length]? with
    | none => exact fun _ _ h => h
    | some r =>
      have hmem := hrest.subset (List.mem_of_getElem? hr)
      exact mergedAlike_leftOver he ha hmerged hlength hmem

end Again

/-- Merged by position in the arranged order again, the objects of a list stay as they are. -/
theorem paired_arranged_again {p : Property} (hn : p.Throughout NamesDistinct)
    (he : p.element.isSome = true) {n : Nat} {remote stored merged : List Value}
    (hk : ∀ r ∈ remote, r.keysDistinct = true) (hf : ∀ r ∈ remote, r.nanFree = true)
    (ha : p.ArrangesAgain n remote stored)
    (hs : ∀ pair ∈ paired (arranged p.sameItem stored remote) stored,
      p.ElementAlong SetSettled pair.1 pair.2)
    (h : List.Forall₂ (fun pair v => (p.mergeObject pair.1 pair.2).result = .ok v)
      (paired (arranged p.sameItem stored remote) stored) merged) :
    List.Forall₂ (fun pair v => (p.mergeObject pair.1 pair.2).result = .ok v)
      (paired (arranged p.sameItem merged remote) merged) merged := by
  have hlength : merged.length =
      max (arranged p.sameItem stored remote).length stored.length := by
    rw [← h.length_eq, length_paired]
  have hplace : ∀ (k : Nat) v, merged[k]? = some v → ∃ pair,
      (paired (arranged p.sameItem stored remote) stored)[k]? = some pair ∧
      pair = (((arranged p.sameItem stored remote)[k]?).getD .null, (stored[k]?).getD .null) ∧
      (p.mergeObject pair.1 pair.2).result = .ok v := by
    intro k v hv
    have hlt : k < max (arranged p.sameItem stored remote).length stored.length :=
      hlength ▸ (List.getElem?_eq_some_iff.mp hv).1
    obtain ⟨w, hw, hm⟩ := Lists.getElem?_left h (getElem?_paired hlt)
    obtain rfl := Option.some.inj (hw.symm.trans hv)
    exact ⟨_, getElem?_paired hlt, rfl, hm⟩
  have hmerged : ∀ (k : Nat) v, merged[k]? = some v →
      (p.mergeObject (((arranged p.sameItem stored remote)[k]?).getD .null)
        ((stored[k]?).getD .null)).result = .ok v := by
    intro k v hv
    obtain ⟨_, -, rfl, hm⟩ := hplace k v hv
    exact hm
  have hrecognised := sameItem_arranged he ha hmerged hlength hn hk hf
  have hlost := fun hlt => ha.lost he hlt merged (ok_mergeList.mpr ⟨_, merged, rfl, h, rfl⟩)
  obtain ⟨again, rest, harranged, hagain, hrest⟩ :=
    arranged_again (links_of_keysDistinct hk) hrecognised hlost
  have halike := mergedAlike_again he ha hmerged hlength hagain hrest
  have hshort : (arranged p.sameItem merged remote).length ≤ merged.length := by
    have hfound := hrest.length_le.trans (List.length_filterMap_le _ _)
    rw [List.length_drop] at hfound
    rw [harranged, List.length_append, ← hagain.length_eq]
    omega
  refine Lists.forall₂_of_getElem? (by rw [length_paired]; omega) fun k pair v hpair hv => ?_
  have hlt := (List.getElem?_eq_some_iff.mp hv).1
  rw [getElem?_paired (by omega), hv] at hpair
  obtain rfl := Option.some.inj hpair
  obtain ⟨_, hmem, rfl, hm⟩ := hplace k v hv
  rw [harranged]
  exact halike k _ _ (mergeObject_again_of_settled hn (hs _ (List.mem_of_getElem? hmem)) v hm)

/-- Items other than objects are taken as they are, so they are arranged in their own order. -/
theorem sameTree_arranged_again {p : Property} (he : p.element.isSome ≠ true) {n : Nat}
    {remote stored : List Value} (hk : ∀ r ∈ remote, r.keysDistinct = true)
    (hf : ∀ r ∈ remote, r.nanFree = true) (ha : p.ArrangesAgain n remote stored) :
    Value.SameTree
      (.array (arranged p.sameItem (arranged p.sameItem stored remote) remote))
      (.array (arranged p.sameItem stored remote)) := by
  have hrecognised : List.Forall₂ (fun r m => p.sameItem m r = true)
      ((arranged p.sameItem stored remote).take (arranged p.sameItem stored remote).length)
      ((arranged p.sameItem stored remote).take (arranged p.sameItem stored remote).length) := by
    rw [List.take_length, List.forall₂_same]
    intro r hr
    have hmem := mem_of_mem_arranged hr
    rw [sameItem_none (by simpa using he)]
    exact Value.equals_refl (hk r hmem) (hf r hmem)
  obtain ⟨again, rest, harranged, hagain, hrest⟩ := arranged_again (links_of_keysDistinct hk)
    hrecognised fun hlt => absurd hlt (Nat.lt_irrefl _)
  rw [List.drop_length, List.filterMap_nil, List.sublist_nil] at hrest
  rw [harranged, hrest, List.append_nil]
  refine Value.SameTree.array (List.Forall₂.flip ?_)
  have hmem : ∀ r ∈ arranged p.sameItem stored remote, r ∈ remote := fun _ => mem_of_mem_arranged
  refine ((List.forall₂_and_left _ _).mpr ⟨hmem, hagain⟩).imp fun r r' hrr' => ?_
  obtain ⟨hr, rfl | ⟨hr', hfresh, hfresh', hm⟩⟩ := hrr'
  · exact Value.SameTree.refl _
  · have hcome := ha.fresh r hr r' hr' hfresh hfresh' hm
    rw [Interchangeable, if_neg he] at hcome
    exact hcome.symm

end Property

end Reconciliation
