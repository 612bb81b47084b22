import Reconciliation.Proofs.Lists
import Reconciliation.Proofs.Value.Hash
import Reconciliation.Proofs.Value.Text

/-! # Values of one hash

Equal values have one hash. Values that are not equal can have one hash as well, and there are few
ways to that: different texts have one checksum, a text is also that of another sort of value,
checksums that stand side by side can be parted in several ways, or one of these happens to values
further down.
-/
namespace Reconciliation.Value

theorem checksumText_inj {s t : String} :
    checksumText s = checksumText t ↔ Crc32.ofText s = Crc32.ofText t := by
  rw [checksumText, checksumText, intText_inj, Int.natCast_inj, UInt32.toNat_inj]

theorem itemTexts_eq_iff {xs ys : List Value} :
    itemTexts xs = itemTexts ys ↔ List.Forall₂ (fun x y => x.hash = y.hash) xs ys := by
  rw [itemTexts_eq, itemTexts_eq, ← List.forall₂_eq_eq_eq, List.forall₂_map_left_iff,
    List.forall₂_map_right_iff]
  simp only [checksumText_inj, hash]

/-- The texts of two objects are made of the same pieces if under each key stand values of one hash,
or none. -/
theorem sorted_entryTexts_eq_iff {es fs : Entries Value} (he : es.keys.Nodup) (hf : fs.keys.Nodup) :
    (entryTexts es).sorted = (entryTexts fs).sorted ↔
      ∀ k, Option.Rel (fun v w : Value => v.hash = w.hash) (es.get? k) (fs.get? k) := by
  have hget (gs : Entries Value) (k : String) : (entryTexts gs).get? k =
      (gs.get? k).map fun v => checksumText (canonicalText v) := by
    rw [entryTexts_eq, Entries.get?_mapValues]
  have hrel (k : String) : (entryTexts es).get? k = (entryTexts fs).get? k ↔
      Option.Rel (fun v w : Value => v.hash = w.hash) (es.get? k) (fs.get? k) := by
    rw [hget, hget]
    cases es.get? k <;> cases fs.get? k <;> simp [checksumText_inj, hash]
  constructor
  · intro h k
    rw [← hrel, ← Entries.get?_sorted, h, Entries.get?_sorted]
  · intro h
    have hkeys {gs : Entries Value} (hg : gs.keys.Nodup) : (entryTexts gs).keys.Nodup := by
      rwa [entryTexts_eq, Entries.keys_mapValues]
    exact Entries.sorted_eq_of_get? (hkeys he) (hkeys hf) fun k => (hrel k).mpr (h k)

/-! ## Equal values -/

theorem equals_object_iff_get? {es fs : Entries Value} (he : es.keys.Nodup) :
    equals (.object es) (.object fs) = true ↔
      ∀ k, Option.Rel (fun v w : Value => v.equals w = true) (es.get? k) (fs.get? k) := by
  rw [equals_object]
  constructor
  · rintro ⟨hkeys, hvalues⟩ k
    cases hv : es.get? k with
    | none =>
      have hk : k ∉ fs.keys := by
        rw [← hkeys k, ← Entries.get?_eq_none_iff, hv]
      rw [(Entries.get?_eq_none_iff fs k).mpr hk]
      exact .none
    | some v =>
      obtain ⟨w, hw, hvw⟩ := hvalues (k, v) (Entries.mem_of_get? hv)
      rw [hw]
      exact .some hvw
  · intro h
    constructor
    · intro k
      have hk := h k
      rw [← not_iff_not, ← Entries.get?_eq_none_iff, ← Entries.get?_eq_none_iff]
      cases hv : es.get? k <;> cases hw : fs.get? k <;> rw [hv, hw] at hk <;> simp_all
    · intro e hmem
      exact Entries.exists_right (h e.1) (Entries.get?_of_mem he hmem)

section
variable {xs ys : List Value} {es fs : Entries Value}

theorem itemTexts_of_equals (h : equals (.array xs) (.array ys) = true)
    (ih : ∀ x ∈ xs, ∀ y ∈ ys, x.equals y = true → canonicalText x = canonicalText y) :
    itemTexts xs = itemTexts ys := by
  rw [itemTexts_eq_iff]
  exact Lists.forall₂_imp_of_mem (equals_array.mp h) fun x hx y hy hxy =>
    congrArg Crc32.ofText (ih x hx y hy hxy)

theorem sorted_entryTexts_of_equals (he : es.keys.Nodup) (hf : fs.keys.Nodup)
    (h : equals (.object es) (.object fs) = true)
    (ih : ∀ e ∈ es, ∀ f ∈ fs, e.2.equals f.2 = true → canonicalText e.2 = canonicalText f.2) :
    (entryTexts es).sorted = (entryTexts fs).sorted := by
  rw [sorted_entryTexts_eq_iff he hf]
  exact Entries.rel_of_rel ((equals_object_iff_get? he).mp h) fun k v w hv hw hvw =>
    congrArg Crc32.ofText (ih _ (Entries.mem_of_get? hv) _ (Entries.mem_of_get? hw) hvw)

end

theorem canonicalText_of_equals {v w : Value} (hv : v.keysDistinct = true)
    (hw : w.keysDistinct = true) (h : v.equals w = true) : canonicalText v = canonicalText w := by
  induction v generalizing w with
  | null => cases w <;> first | rfl | simp [equals] at h
  | array xs ih =>
    cases w with
    | array ys =>
      rw [keysDistinct_array] at hv hw
      rw [canonicalText, canonicalText, itemTexts_of_equals h]
      exact fun x hx y hy hxy => ih x hx (hv x hx) (hw y hy) hxy
    | _ => simp [equals] at h
  | object es ih =>
    cases w with
    | object fs =>
      rw [keysDistinct_object] at hv hw
      rw [canonicalText, canonicalText, sorted_entryTexts_of_equals hv.1 hw.1 h]
      exact fun e he f hf hef => ih e he (hv.2 e he) (hw.2 f hf) hef
    | _ => simp [equals] at h
  | _ =>
    have hshape : w.shape = .scalar := (equals_shape h).symm
    obtain ⟨m, hm, hm'⟩ := (equals_scalar rfl hshape).mp h
    rw [canonicalText_of_meaning? hm, canonicalText_of_meaning? hm']

theorem hash_of_equals {v w : Value} (hv : v.keysDistinct = true) (hw : w.keysDistinct = true)
    (h : v.equals w = true) : v.hash = w.hash :=
  congrArg Crc32.ofText (canonicalText_of_equals hv hw h)

/-! ## Values that collide -/

inductive Collision : Value → Value → Prop
  /-- Two texts have one checksum. -/
  | checksum {v w : Value} (texts : canonicalText v ≠ canonicalText w) (hash : v.hash = w.hash) :
    Collision v w
  /-- A text is that of two sorts of values: of null and of a string, say. -/
  | family {v w : Value} (families : v.family ≠ w.family)
    (text : canonicalText v = canonicalText w) : Collision v w
  /-- A number that is not one is not equal to itself. -/
  | nan : Collision (.float .nan) (.float .nan)
  /-- Two rows of checksums read alike when they are joined. -/
  | items {xs ys : List Value} (rows : itemTexts xs ≠ itemTexts ys)
    (text : canonicalText (.array xs) = canonicalText (.array ys)) :
    Collision (.array xs) (.array ys)
  /-- Two items collide, and the arrays have the same checksums in all places. -/
  | item {xs ys : List Value} (rows : itemTexts xs = itemTexts ys) {k : Nat} {x y : Value}
    (left : xs[k]? = some x) (right : ys[k]? = some y) (inner : Collision x y) :
    Collision (.array xs) (.array ys)
  /-- Two rows of keys and checksums read alike when they are joined. -/
  | entries {es fs : Entries Value} (rows : (entryTexts es).sorted ≠ (entryTexts fs).sorted)
    (text : canonicalText (.object es) = canonicalText (.object fs)) :
    Collision (.object es) (.object fs)
  /-- Two values under one key collide, and the objects have the same checksums under all keys. -/
  | entry {es fs : Entries Value} (rows : (entryTexts es).sorted = (entryTexts fs).sorted)
    {k : String} {v w : Value} (left : es.get? k = some v) (right : fs.get? k = some w)
    (inner : Collision v w) : Collision (.object es) (.object fs)

theorem Collision.hash_eq {v w : Value} (h : Collision v w) : v.hash = w.hash := by
  cases h with
  | checksum _ hash => exact hash
  | family _ text => exact congrArg Crc32.ofText text
  | nan => rfl
  | items _ text => exact congrArg Crc32.ofText text
  | item rows => rw [hash, hash, canonicalText, canonicalText, rows]
  | entries _ text => exact congrArg Crc32.ofText text
  | entry rows => rw [hash, hash, canonicalText, canonicalText, rows]

theorem Collision.not_equals {v w : Value} (hv : v.keysDistinct = true)
    (hw : w.keysDistinct = true) (h : Collision v w) : v.equals w = false := by
  rw [Bool.eq_false_iff]
  intro heq
  induction h with
  | checksum texts => exact texts (canonicalText_of_equals hv hw heq)
  | family families => exact families (family_of_equals heq)
  | nan => simp [equals, Binary64.numericallyEqual, Binary64.value?] at heq
  | items rows =>
    rw [keysDistinct_array] at hv hw
    exact rows (itemTexts_of_equals heq fun x hx y hy => canonicalText_of_equals (hv x hx) (hw y hy))
  | item _ left right _ ih =>
    rw [equals_array] at heq
    rw [keysDistinct_array] at hv hw
    obtain ⟨z, hz, hxz⟩ := Lists.getElem?_left heq left
    obtain rfl := Option.some.inj (right.symm.trans hz)
    exact ih (hv _ (List.mem_of_getElem? left)) (hw _ (List.mem_of_getElem? right)) hxz
  | entries rows =>
    rw [keysDistinct_object] at hv hw
    exact rows (sorted_entryTexts_of_equals hv.1 hw.1 heq fun e he f hf =>
      canonicalText_of_equals (hv.2 e he) (hw.2 f hf))
  | @entry es fs _ k v w left right _ ih =>
    rw [keysDistinct_object] at hv hw
    have hk := (equals_object_iff_get? hv.1).mp heq k
    rw [left, right, Option.rel_some_some] at hk
    exact ih (hv.2 _ (Entries.mem_of_get? left)) (hw.2 _ (Entries.mem_of_get? right)) hk

theorem collision_or_text {v w : Value} (h : v.hash = w.hash) :
    Collision v w ∨ canonicalText v = canonicalText w ∧ v.family = w.family := by
  by_cases ht : canonicalText v = canonicalText w
  · by_cases hf : v.family = w.family
    · exact Or.inr ⟨ht, hf⟩
    · exact Or.inl (.family hf ht)
  · exact Or.inl (.checksum ht h)

theorem equals_or_collision {v w : Value} (hv : v.keysDistinct = true) (hw : w.keysDistinct = true)
    (h : v.hash = w.hash) : v.equals w = true ∨ Collision v w := by
  induction v generalizing w with
  | null =>
    rcases collision_or_text h with hc | ⟨-, hf⟩
    · exact Or.inr hc
    · cases w <;> first | exact Or.inl rfl | cases hf
  | string s =>
    rcases collision_or_text h with hc | ⟨ht, hf⟩
    · exact Or.inr hc
    · cases w <;> first | exact Or.inl (beq_iff_eq.mpr ht) | cases hf
  | array xs ih =>
    rcases collision_or_text h with hc | ⟨ht, hf⟩
    · exact Or.inr hc
    cases w with
    | array ys =>
      rw [keysDistinct_array] at hv hw
      by_cases rows : itemTexts xs = itemTexts ys
      · have hpairs := Lists.forall₂_imp_of_mem (itemTexts_eq_iff.mp rows) fun x hx y hy =>
          ih x hx (hv x hx) (hw y hy)
        rcases Lists.forall₂_or hpairs with heq | ⟨k, x, y, hx, hy, hc⟩
        · exact Or.inl (equals_array.mpr heq)
        · exact Or.inr (.item rows hx hy hc)
      · exact Or.inr (.items rows ht)
    | _ => cases hf
  | object es ih =>
    rcases collision_or_text h with hc | ⟨ht, hf⟩
    · exact Or.inr hc
    cases w with
    | object fs =>
      rw [keysDistinct_object] at hv hw
      by_cases rows : (entryTexts es).sorted = (entryTexts fs).sorted
      · have hpairs : ∀ k, Option.Rel (fun v w : Value => v.equals w = true ∨ Collision v w)
            (Entries.get? es k) (Entries.get? fs k) :=
          Entries.rel_of_rel ((sorted_entryTexts_eq_iff hv.1 hw.1).mp rows) fun k v w hv' hw' =>
            have hmem := Entries.mem_of_get? hv'
            ih _ hmem (hv.2 _ hmem) (hw.2 _ (Entries.mem_of_get? hw'))
        rcases Entries.rel_or hpairs with heq | ⟨k, v, w, hv', hw', hc⟩
        · exact Or.inl ((equals_object_iff_get? hv.1).mpr heq)
        · exact Or.inr (.entry rows hv' hw' hc)
      · exact Or.inr (.entries rows ht)
    | _ => cases hf
  | _ =>
    rcases collision_or_text h with hc | ⟨ht, hf⟩
    · exact Or.inr hc
    · rcases equals_of_text (by simp [family]) (by rw [← hf]; simp [family]) ht with heq | ⟨hv, hw⟩
      · exact Or.inl heq
      · rw [hv, hw]
        exact Or.inr .nan

/-- Values of one hash are those that are equal and those that collide. -/
theorem hash_eq_iff {v w : Value} (hv : v.keysDistinct = true) (hw : w.keysDistinct = true) :
    v.hash = w.hash ↔ v.equals w = true ∨ Collision v w := by
  constructor
  · exact equals_or_collision hv hw
  · rintro (heq | hc)
    · exact hash_of_equals hv hw heq
    · exact hc.hash_eq

end Reconciliation.Value
