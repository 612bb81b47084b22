import Reconciliation.Proofs.Value.Collision
import Reconciliation.Proofs.Value.Decision

/-! # Values of one content

What an object holds does not depend on the order of its entries, nor what a number is on its type.
Values that differ in no other way, at any depth, have one hash as a whole and by their key fields.
They need not be equal, since the number that is not one is in no way equal to itself. What can be
said of values that have one hash is `hash_eq_iff`.
-/
namespace Reconciliation.Value

/-- The same tree, but for the order of entries and the types of numbers. -/
inductive SameContent : Value → Value → Prop
  | same (v : Value) : SameContent v v
  /-- An integer or floating-point number in the place of another. -/
  | number {v w : Value} (left : v.family = .number) (right : w.family = .number)
    (h : v.equals w = true) : SameContent v w
  | array {xs ys : List Value} (items : List.Forall₂ SameContent xs ys) :
    SameContent (.array xs) (.array ys)
  /-- The entries are put into another order, and then their values replaced one by one. -/
  | object {es fs gs : Entries Value} (order : es.Perm gs) (keys : gs.keys = fs.keys)
    (values : List.Forall₂ SameContent (gs.map Prod.snd) (fs.map Prod.snd)) :
    SameContent (.object es) (.object fs)

namespace SameContent

/-- What two objects have under one key tells all that the order of their entries leaves. -/
theorem get? {es fs : Entries Value} (he : es.keys.Nodup)
    (h : SameContent (.object es) (.object fs)) (k : String) :
    Option.Rel SameContent (es.get? k) (fs.get? k) := by
  cases h with
  | same =>
    cases es.get? k with
    | none => exact .none
    | some v => exact .some (.same v)
  | number left => cases left
  | object order keys values =>
    rw [Entries.get?_perm he order]
    exact Entries.rel_of_forall₂ keys values k

theorem exists_array {xs : List Value} {w : Value} (h : SameContent (.array xs) w) :
    ∃ ys, w = .array ys ∧ List.Forall₂ SameContent xs ys := by
  cases h with
  | same => exact ⟨xs, rfl, List.forall₂_same.mpr fun x _ => .same x⟩
  | number left => cases left
  | array items => exact ⟨_, rfl, items⟩

theorem exists_object {es : Entries Value} {w : Value} (he : es.keys.Nodup)
    (h : SameContent (.object es) w) : ∃ fs : Entries Value, w = .object fs ∧ fs.keys.Nodup ∧
      ∀ k, Option.Rel SameContent (es.get? k) (fs.get? k) := by
  have hget {fs : Entries Value} (hw : w = .object fs) := get? he (hw ▸ h)
  cases h with
  | same => exact ⟨es, rfl, he, hget rfl⟩
  | number left => cases left
  | @object _ fs gs order keys values =>
    have hkeys : es.keys.Perm gs.keys := order.map Prod.fst
    exact ⟨fs, rfl, keys ▸ hkeys.nodup_iff.mp he, hget rfl⟩

theorem keysDistinct {v w : Value} (hv : v.keysDistinct = true) (h : SameContent v w) :
    w.keysDistinct = true := by
  induction v generalizing w with
  | array xs ih =>
    obtain ⟨ys, rfl, items⟩ := h.exists_array
    rw [keysDistinct_array] at hv ⊢
    intro y hy
    obtain ⟨x, hx, hxy⟩ := Lists.exists_left items hy
    exact ih x hx (hv x hx) hxy
  | object es ih =>
    rw [keysDistinct_object] at hv
    obtain ⟨fs, rfl, hf, hget⟩ := h.exists_object hv.1
    rw [keysDistinct_object]
    refine ⟨hf, fun f hmem => ?_⟩
    obtain ⟨v, hget, hvf⟩ := Entries.exists_left (hget f.1) (Entries.get?_of_mem hf hmem)
    have hmem := Entries.mem_of_get? hget
    exact ih _ hmem (hv.2 _ hmem) hvf
  | _ =>
    cases h with
    | same => exact hv
    | number _ right => cases w <;> first | rfl | cases right

theorem canonicalText_eq {v w : Value} (hv : v.keysDistinct = true)
    (hw : w.keysDistinct = true) (h : SameContent v w) : canonicalText v = canonicalText w := by
  induction v generalizing w with
  | array xs ih =>
    obtain ⟨ys, rfl, items⟩ := h.exists_array
    rw [keysDistinct_array] at hv hw
    rw [canonicalText, canonicalText, itemTexts_eq_iff.mpr]
    refine Lists.forall₂_imp_of_mem items fun x hx y hy hxy => ?_
    exact congrArg Crc32.ofText (ih x hx (hv x hx) (hw y hy) hxy)
  | object es ih =>
    -- What each key reads is all that the texts tell.
    rw [keysDistinct_object] at hv
    obtain ⟨fs, rfl, hf, hget⟩ := h.exists_object hv.1
    rw [keysDistinct_object] at hw
    rw [canonicalText, canonicalText, (sorted_entryTexts_eq_iff hv.1 hf).mpr]
    refine Entries.rel_of_rel hget fun k x y hx hy hxy => ?_
    have hmem := Entries.mem_of_get? hx
    exact congrArg Crc32.ofText
      (ih _ hmem (hv.2 _ hmem) (hw.2 _ (Entries.mem_of_get? hy)) hxy)
  | _ =>
    cases h with
    | same => rfl
    | number _ _ heq => exact canonicalText_of_equals hv hw heq

end SameContent

/-! ## Key fields -/

theorem rel_field {R : Value → Value → Prop} {es fs : Entries Value} {k : String}
    (hnull : R .null .null) (h : Option.Rel R (es.get? k) (fs.get? k)) :
    R (field es k) (field fs k) := by
  rw [field, field]
  generalize es.get? k = x at h
  generalize fs.get? k = y at h
  cases h with
  | none => exact hnull
  | some hxy => exact hxy

/-- Objects that read alike, in whatever way, have key fields that are alike in this way. -/
theorem forall₂_fields {R : Value → Value → Prop} {es fs : Entries Value} (hnull : R .null .null)
    (h : ∀ k, Option.Rel R (es.get? k) (fs.get? k)) (key : List String) :
    List.Forall₂ R (key.map (field es)) (key.map (field fs)) := by
  rw [List.forall₂_map_left_iff, List.forall₂_map_right_iff, List.forall₂_same]
  intro k _
  exact rel_field hnull (h k)

theorem keyOf_of_shape {v : Value} (h : v.shape ≠ .object) (key : List String) :
    keyOf key v = v := by
  cases v with
  | object es => exact absurd rfl h
  | _ => rfl

theorem equals_keyOf {v w : Value} (hv : v.keysDistinct = true) (h : v.equals w = true)
    (key : List String) : (keyOf key v).equals (keyOf key w) = true := by
  cases v with
  | object es =>
    cases w with
    | object fs =>
      rw [keysDistinct_object] at hv
      rw [keyOf, keyOf, equals_array]
      exact forall₂_fields (R := fun v w => v.equals w = true) rfl
        ((equals_object_iff_get? hv.1).mp h) key
    | _ => cases equals_shape h
  | _ =>
    have hw : w.shape ≠ .object := by
      rw [← equals_shape h]
      intro hobject
      cases hobject
    rw [keyOf_of_shape hw]
    exact h

theorem SameContent.keyOf {v w : Value} (hv : v.keysDistinct = true) (h : SameContent v w)
    (key : List String) : SameContent (keyOf key v) (keyOf key w) := by
  cases h with
  | same => exact .same _
  | number left right heq =>
    have hplain {u : Value} (hu : u.family = .number) : Value.keyOf key u = u := by
      cases u <;> first | rfl | cases hu
    rw [hplain left, hplain right]
    exact .number left right heq
  | array items => exact .array items
  | @object es fs gs order keys values =>
    rw [keysDistinct_object] at hv
    exact .array (forall₂_fields (.same .null) (get? hv.1 (.object order keys values)) key)

/-! ## Hashes -/

theorem hash_eq_of_content {v w : Value} (hv : v.keysDistinct = true) (hw : w.keysDistinct = true)
    (h : v.equals w = true ∨ SameContent v w) : v.hash = w.hash := by
  rcases h with heq | hsame
  · exact hash_of_equals hv hw heq
  · exact congrArg Crc32.ofText (hsame.canonicalText_eq hv hw)

/-- Equal values have the same hashes, and so have values of one content. The latter need not be
equal, since the number that is not one may be in them. -/
theorem hash_congr {v w : Value} (hv : v.keysDistinct = true) (hw : w.keysDistinct = true)
    (h : v.equals w = true ∨ SameContent v w) :
    v.hash = w.hash ∧ ∀ key, correlationHash key v = correlationHash key w := by
  refine ⟨hash_eq_of_content hv hw h, fun key => ?_⟩
  rw [correlationHash_eq, correlationHash_eq]
  apply hash_eq_of_content (keysDistinct_keyOf hv key) (keysDistinct_keyOf hw key)
  exact h.imp (fun heq => equals_keyOf hv heq key) fun hsame => hsame.keyOf hv key

/-! ## A disk before and after it is stored -/

def sentDisk : Value :=
  .object [("size", .int (2 ^ 53 + 2)), ("free", .float .negativeZero), ("load", .float .nan)]

def storedDisk : Value :=
  .object [("free", .int 0), ("load", .float .nan), ("size", .float (.nearest (2 ^ 53 + 2)))]

theorem sentDisk_content : SameContent sentDisk storedDisk := by
  have horder : List.Perm
      [("size", Value.int (2 ^ 53 + 2)), ("free", .float .negativeZero), ("load", .float .nan)]
      [("free", .float .negativeZero), ("load", .float .nan), ("size", .int (2 ^ 53 + 2))] := by
    decide +kernel
  have hfree : SameContent (.float .negativeZero) (.int 0) :=
    .number rfl rfl (by decide +kernel)
  have hsize : SameContent (.int (2 ^ 53 + 2)) (.float (.nearest (2 ^ 53 + 2))) :=
    .number rfl rfl (by decide +kernel)
  exact .object horder rfl (.cons hfree (.cons (.same _) (.cons hsize .nil)))

theorem hash_sentDisk :
    sentDisk.keysDistinct = true ∧ storedDisk.keysDistinct = true ∧
      (sentDisk.equals storedDisk = true ∨ SameContent sentDisk storedDisk) ∧
      sentDisk.hash = storedDisk.hash ∧
      ∀ key, correlationHash key sentDisk = correlationHash key storedDisk := by
  have hsent : sentDisk.keysDistinct = true := by decide +kernel
  have hstored : storedDisk.keysDistinct = true := by decide +kernel
  exact ⟨hsent, hstored, Or.inr sentDisk_content,
    hash_congr hsent hstored (Or.inr sentDisk_content)⟩

end Reconciliation.Value
