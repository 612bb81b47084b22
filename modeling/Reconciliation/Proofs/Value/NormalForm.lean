import Reconciliation.Proofs.Value.Content

/-! # Equal values are one tree

A value is put into a normal form by writing every integral number as an integer and then the keys of
every object in ascending order. Values are equal if and only if they have one normal form and no number
in them is the one that is not a number. So equality is an equivalence on the values without that
number, and whatever has the content of a value is equal to the same values.
-/
namespace Reconciliation.Value

/-! ## Integral numbers -/

def integerForm (x : Binary64) : Value :=
  match x.value?.bind Binary64.integer? with
  | some n => .int n
  | none => .float x

mutual

/-- The tree with every integral number written as an integer. -/
def withIntegers : Value → Value
  | .float x => integerForm x
  | .array xs => .array (integerItems xs)
  | .object es => .object (integerEntries es)
  | v => v

def integerItems : List Value → List Value
  | [] => []
  | x :: xs => withIntegers x :: integerItems xs

def integerEntries : List (String × Value) → Entries Value
  | [] => []
  | (k, v) :: es => (k, withIntegers v) :: integerEntries es

end

theorem integerItems_eq (xs : List Value) : integerItems xs = xs.map withIntegers := by
  induction xs with
  | nil => rfl
  | cons x xs ih => rw [integerItems, ih, List.map_cons]

theorem integerEntries_eq (es : Entries Value) :
    integerEntries es = Entries.mapValues withIntegers es := by
  induction es with
  | nil => rfl
  | cons e es ih =>
    obtain ⟨k, v⟩ := e
    rw [integerEntries, ih, Entries.mapValues_cons]

@[simp] theorem withIntegers_array (xs : List Value) :
    withIntegers (.array xs) = .array (xs.map withIntegers) := by
  rw [withIntegers, integerItems_eq]

@[simp] theorem withIntegers_object (es : Entries Value) :
    withIntegers (.object es) = .object (Entries.mapValues withIntegers es) := by
  rw [withIntegers, integerEntries_eq]

@[simp] theorem shape_withIntegers (v : Value) : v.withIntegers.shape = v.shape := by
  cases v with
  | float x =>
    rw [withIntegers, integerForm]
    split <;> rfl
  | array xs => rw [withIntegers_array]; rfl
  | object es => rw [withIntegers_object]; rfl
  | _ => rfl

/-- A number stands for the same as an integer. -/
theorem meaning?_withIntegers {v : Value} (h : v.shape = .scalar) :
    v.withIntegers.meaning? = v.meaning? := by
  cases v with
  | float x =>
    rw [withIntegers, integerForm]
    split
    · rename_i n hn
      obtain ⟨d, hd, hint⟩ := Option.bind_eq_some_iff.mp hn
      obtain rfl := Binary64.integer?_eq_some_iff.mp hint
      exact (meaning?_of_value? hd).symm
    · rfl
  | array xs => cases h
  | object es => cases h
  | _ => rfl

/-- The scalar that stands for what is given, an integer for an integral number. -/
def Meaning.value : Meaning → Value
  | .bool b => .bool b
  | .number d => match Binary64.integer? d with
    | some n => .int n
    | none => if h : Binary64.Fits d then .float (.finite d h) else .null
  | .infinity negative => .float (.infinity negative)
  | .string s => .string s

theorem withIntegers_of_meaning? {v : Value} {m : Meaning} (h : v.meaning? = some m) :
    v.withIntegers = m.value := by
  cases v with
  | float x =>
    cases x with
    | finite d fits =>
      obtain rfl := Option.some.inj h
      rw [withIntegers, integerForm, Meaning.value, Binary64.value?, Option.bind_some]
      cases Binary64.integer? d with
      | some n => rfl
      | none =>
        dsimp only
        rw [dif_pos fits]
    | negativeZero =>
      obtain rfl := Option.some.inj h
      rfl
    | infinity negative =>
      obtain rfl := Option.some.inj h
      rfl
    | nan => cases h
  | int n =>
    obtain rfl := Option.some.inj h
    rw [Meaning.value, Binary64.integer?_eq_some_iff.mpr rfl]
    rfl
  | bool b =>
    obtain rfl := Option.some.inj h
    rfl
  | string s =>
    obtain rfl := Option.some.inj h
    rfl
  | _ => cases h

/-! ## Normal forms -/

/-- The same tree, but for the order of entries and the way in which integral numbers are written. -/
def SameForm (v w : Value) : Prop := SameTree v.withIntegers w.withIntegers

namespace SameForm

theorem symm {v w : Value} (h : SameForm v w) : SameForm w v := SameTree.symm h

theorem trans {u v w : Value} (h : SameForm u v) (k : SameForm v w) : SameForm u w :=
  SameTree.trans h k

theorem shape {v w : Value} (h : SameForm v w) : v.shape = w.shape := by
  rw [← shape_withIntegers v, SameTree.shape h, shape_withIntegers]

theorem array_iff {xs ys : List Value} :
    SameForm (.array xs) (.array ys) ↔ List.Forall₂ SameForm xs ys := by
  rw [SameForm, withIntegers_array, withIntegers_array, SameTree.array_iff,
    List.forall₂_map_left_iff, List.forall₂_map_right_iff]
  rfl

theorem object_iff {es fs : Entries Value} (he : es.keys.Nodup) (hf : fs.keys.Nodup) :
    SameForm (.object es) (.object fs) ↔ ∀ k, Option.Rel SameForm (es.get? k) (fs.get? k) := by
  rw [SameForm, withIntegers_object, withIntegers_object,
    SameTree.object_iff (by rwa [Entries.keys_mapValues]) (by rwa [Entries.keys_mapValues])]
  refine forall_congr' fun k => ?_
  rw [Entries.get?_mapValues, Entries.get?_mapValues]
  cases es.get? k <;> cases fs.get? k <;> simp [SameForm]

end SameForm

theorem nanFree_of_meaning? {v : Value} {m : Meaning} (h : v.meaning? = some m) :
    v.nanFree = true := by
  cases v with
  | float x => cases x <;> first | rfl | cases h
  | array xs => cases h
  | object es => cases h
  | _ => rfl

theorem equals_scalar_iff {v w : Value} (hk : v.keysDistinct = true) (hv : v.shape = .scalar) :
    v.equals w = true ↔ v.nanFree = true ∧ SameForm v w := by
  constructor
  · intro h
    obtain ⟨m, hm, hm'⟩ := (equals_scalar hv ((equals_shape h).symm.trans hv)).mp h
    refine ⟨nanFree_of_meaning? hm, ?_⟩
    rw [SameForm, withIntegers_of_meaning? hm, withIntegers_of_meaning? hm']
    exact SameTree.refl _
  · rintro ⟨hn, hsame⟩
    have hw : w.shape = .scalar := hsame.shape.symm.trans hv
    obtain ⟨m, hm, -⟩ := (equals_scalar hv hv).mp (equals_refl hk hn)
    have hform : v.withIntegers = w.withIntegers :=
      SameTree.eq_of_shape (.inr ((shape_withIntegers v).trans hv)) hsame
    refine (equals_scalar hv hw).mpr ⟨m, hm, ?_⟩
    rw [← meaning?_withIntegers hw, ← hform, meaning?_withIntegers hv, hm]

theorem equals_iff_of_shape_ne {v w : Value} (h : v.shape ≠ w.shape) :
    v.equals w = true ↔ v.nanFree = true ∧ SameForm v w :=
  iff_of_false (fun heq => h (equals_shape heq)) fun hsame => h hsame.2.shape

/-- Values are equal if they have one normal form in which there is no number that is not one. -/
theorem equals_iff_sameForm {v w : Value} (hv : v.keysDistinct = true) (hw : w.keysDistinct = true) :
    v.equals w = true ↔ v.nanFree = true ∧ SameForm v w := by
  induction v generalizing w with
  | null =>
    cases w with
    | null => exact iff_of_true rfl ⟨rfl, SameTree.refl _⟩
    | _ => exact equals_iff_of_shape_ne nofun
  | array xs ih =>
    cases w with
    | array ys =>
      rw [keysDistinct_array] at hv hw
      rw [equals_array, nanFree_array, SameForm.array_iff, ← List.forall₂_and_left]
      have hitem : ∀ x ∈ xs, ∀ y ∈ ys, x.equals y = true ↔ x.nanFree = true ∧ SameForm x y :=
        fun x hx y hy => ih x hx (hv x hx) (hw y hy)
      constructor
      · exact fun h => Lists.forall₂_imp_of_mem h fun x hx y hy => (hitem x hx y hy).mp
      · exact fun h => Lists.forall₂_imp_of_mem h fun x hx y hy => (hitem x hx y hy).mpr
    | _ => exact equals_iff_of_shape_ne nofun
  | object es ih =>
    cases w with
    | object fs =>
      rw [keysDistinct_object] at hv hw
      rw [equals_object_iff_get? hv.1, nanFree_object, SameForm.object_iff hv.1 hw.1,
        ← Entries.rel_and_left (P := fun v => v.nanFree = true) hv.1]
      have hvalue : ∀ k x y, es.get? k = some x → Entries.get? fs k = some y →
          (x.equals y = true ↔ x.nanFree = true ∧ SameForm x y) := by
        intro k x y hx hy
        have hmem := Entries.mem_of_get? hx
        exact ih _ hmem (hv.2 _ hmem) (hw.2 _ (Entries.mem_of_get? hy))
      constructor
      · exact fun h => Entries.rel_of_rel h fun k x y hx hy => (hvalue k x y hx hy).mp
      · exact fun h => Entries.rel_of_rel h fun k x y hx hy => (hvalue k x y hx hy).mpr
    | _ => exact equals_iff_of_shape_ne nofun
  | _ => exact equals_scalar_iff hv rfl

/-- An integer is not rounded before it is compared. -/
example : (Value.int (2 ^ 53 + 1)).equals (.float (.nearest (2 ^ 53 + 1))) = false := by
  decide +kernel

theorem SameContent.sameForm {v w : Value} (hv : v.keysDistinct = true) (h : SameContent v w) :
    SameForm v w := by
  induction v generalizing w with
  | array xs ih =>
    obtain ⟨ys, rfl, items⟩ := h.exists_array
    rw [keysDistinct_array] at hv
    rw [SameForm.array_iff]
    exact Lists.forall₂_imp_of_mem items fun x hx _ _ hxy => ih x hx (hv x hx) hxy
  | object es ih =>
    rw [keysDistinct_object] at hv
    obtain ⟨fs, rfl, hf, hget⟩ := h.exists_object hv.1
    rw [SameForm.object_iff hv.1 hf]
    refine Entries.rel_of_rel hget fun k x y hx _ hxy => ?_
    have hmem := Entries.mem_of_get? hx
    exact ih _ hmem (hv.2 _ hmem) hxy
  | _ =>
    have hw := h.keysDistinct hv
    cases h with
    | same => exact SameTree.refl _
    | number _ _ heq => exact ((equals_iff_sameForm hv hw).mp heq).2

/-! ## An equivalence -/

section

variable {v w : Value} (hv : v.keysDistinct = true) (hw : w.keysDistinct = true)
include hv hw

theorem equals_comm : v.equals w = w.equals v :=
  Bool.eq_iff_iff.mpr ⟨equals_symm hw, equals_symm hv⟩

/-- One normal form is that of values with the number that is not one, or of values without it. -/
theorem SameForm.nanFree (h : SameForm v w) (hn : v.nanFree = true) : w.nanFree = true := by
  have heq : v.equals w = true := (equals_iff_sameForm hv hw).mpr ⟨hn, h⟩
  exact ((equals_iff_sameForm hw hv).mp (equals_symm hw heq)).1

theorem equals_congr {v' w' : Value} (hv' : v'.keysDistinct = true) (hw' : w'.keysDistinct = true)
    (hvv' : SameForm v v') (hww' : SameForm w w') : v.equals w = v'.equals w' := by
  rw [Bool.eq_iff_iff, equals_iff_sameForm hv hw, equals_iff_sameForm hv' hw']
  constructor
  · rintro ⟨hn, h⟩
    exact ⟨hvv'.nanFree hv hv' hn, hvv'.symm.trans (h.trans hww')⟩
  · rintro ⟨hn, h⟩
    exact ⟨hvv'.symm.nanFree hv' hv hn, hvv'.trans (h.trans hww'.symm)⟩

end

/-- Equality is an equivalence between the values without the number that is not one, which is equal to
nothing. It parts truth values from numbers, and values of different shapes. Entries in another order
and numbers of the other type, at any depth of either value, make no difference to it. -/
theorem equals_equivalence {u v w : Value} (hv : v.keysDistinct = true)
    (hw : w.keysDistinct = true) :
    (v.equals w = true ↔ v.nanFree = true ∧ SameForm v w) ∧
      v.equals w = w.equals v ∧
      (u.equals v = true → v.equals w = true → u.equals w = true) ∧
      (v.equals v = true ↔ v.nanFree = true) ∧
      (v.equals w = true → v.family = w.family ∧ v.shape = w.shape) ∧
      ∀ v' w', SameContent v v' → SameContent w w' → v.equals w = v'.equals w' := by
  refine ⟨equals_iff_sameForm hv hw, equals_comm hv hw, equals_trans, ?_, ?_, ?_⟩
  · rw [equals_iff_sameForm hv hv]
    exact and_iff_left (SameTree.refl _)
  · intro h
    exact ⟨family_of_equals h, equals_shape h⟩
  · intro v' w' hvv' hww'
    exact equals_congr hv hw (hvv'.keysDistinct hv) (hww'.keysDistinct hw) (hvv'.sameForm hv)
      (hww'.sameForm hw)

/-! ## A pool before and after it is stored -/

def sentPool : Value :=
  .object [("disks", .array [.object [("name", .string "a"), ("load", .float .negativeZero)]]),
    ("size", .int (2 ^ 53 + 2))]

def storedPool : Value :=
  .object [("disks", .array [.object [("load", .int 0), ("name", .string "a")]]),
    ("size", .float (.nearest (2 ^ 53 + 2)))]

def reversedPool : Value :=
  .object [("size", .float (.nearest (2 ^ 53 + 2))),
    ("disks", .array [.object [("name", .string "a"), ("load", .int 0)]])]

theorem storedPool_content : SameContent storedPool reversedPool := by
  have hdisk : SameContent (.object [("load", .int 0), ("name", .string "a")])
      (.object [("name", .string "a"), ("load", .int 0)]) :=
    .object (List.Perm.swap _ _ _) rfl (.cons (.same _) (.cons (.same _) .nil))
  exact .object (List.Perm.swap _ _ _) rfl
    (.cons (.same _) (.cons (.array (.cons hdisk .nil)) .nil))

theorem equals_sentPool :
    storedPool.keysDistinct = true ∧ sentPool.keysDistinct = true ∧
      SameContent storedPool reversedPool ∧ storedPool.equals sentPool = true ∧
      sentPool.equals storedPool = true ∧ sentPool.equals sentPool = true ∧
      storedPool.equals storedPool = true ∧ SameForm storedPool sentPool ∧
      storedPool.family = sentPool.family ∧ reversedPool.equals sentPool = true := by
  have hstored : storedPool.keysDistinct = true := by decide +kernel
  have hsent : sentPool.keysDistinct = true := by decide +kernel
  have heq : storedPool.equals sentPool = true := by decide +kernel
  obtain ⟨hform, hsymm, htrans, hself, hshape, hcontent⟩ :=
    equals_equivalence (u := sentPool) hstored hsent
  obtain ⟨hnan, hsame⟩ := hform.mp heq
  have hback : sentPool.equals storedPool = true := hsymm ▸ heq
  have hreversed : reversedPool.equals sentPool = true :=
    hcontent _ _ storedPool_content (.same _) ▸ heq
  exact ⟨hstored, hsent, storedPool_content, heq, hback, htrans hback heq, hself.mpr hnan, hsame,
    (hshape heq).1, hreversed⟩

end Reconciliation.Value
