import Reconciliation.Proofs.Entries
import Reconciliation.Value.Equality

/-! # Value trees up to the order of entries

A mapping has no order, so two trees that differ only in the order of their entries are the same
tree. Each tree has one ordered form, with keys ascending at every depth.
-/
namespace Reconciliation

/-- A property of all trees holds by induction on the items of arrays and the values of objects. -/
@[induction_eliminator]
theorem Value.induct {P : Value → Prop} (null : P .null) (bool : ∀ b, P (.bool b))
    (int : ∀ n, P (.int n)) (float : ∀ x, P (.float x)) (string : ∀ s, P (.string s))
    (array : ∀ xs : List Value, (∀ x ∈ xs, P x) → P (.array xs))
    (object : ∀ es : Entries Value, (∀ e ∈ es, P e.2) → P (.object es)) (v : Value) : P v :=
  Value.rec (motive_1 := P) (motive_2 := fun xs => ∀ x ∈ xs, P x)
    (motive_3 := fun es => ∀ e ∈ es, P e.2) (motive_4 := fun e => P e.2)
    null bool int float string array object (by simp)
    (fun _ _ hx hxs => List.forall_mem_cons.mpr ⟨hx, hxs⟩) (by simp)
    (fun _ _ he hes => List.forall_mem_cons.mpr ⟨he, hes⟩) (fun _ _ h => h) v

namespace Value

/-! ## Nodes -/

mutual

def everywhere (test : Value → Bool) : Value → Bool
  | .array xs => test (.array xs) && everywhereItems test xs
  | .object es => test (.object es) && everywhereEntries test es
  | v => test v

def everywhereItems (test : Value → Bool) : List Value → Bool
  | [] => true
  | x :: xs => everywhere test x && everywhereItems test xs

def everywhereEntries (test : Value → Bool) : List (String × Value) → Bool
  | [] => true
  | (_, v) :: es => everywhere test v && everywhereEntries test es

end

theorem everywhereItems_iff {test : Value → Bool} {xs : List Value} :
    everywhereItems test xs = true ↔ ∀ x ∈ xs, everywhere test x = true := by
  induction xs with
  | nil => simp [everywhereItems]
  | cons x xs ih => simp [everywhereItems, ih]

theorem everywhereEntries_iff {test : Value → Bool} {es : List (String × Value)} :
    everywhereEntries test es = true ↔ ∀ e ∈ es, everywhere test e.2 = true := by
  induction es with
  | nil => simp [everywhereEntries]
  | cons e es ih =>
    obtain ⟨k, v⟩ := e
    simp [everywhereEntries, ih]

theorem everywhere_array {test : Value → Bool} {xs : List Value} :
    everywhere test (.array xs) = true ↔
      test (.array xs) = true ∧ ∀ x ∈ xs, everywhere test x = true := by
  simp [everywhere, everywhereItems_iff]

theorem everywhere_object {test : Value → Bool} {es : Entries Value} :
    everywhere test (.object es) = true ↔
      test (.object es) = true ∧ ∀ e ∈ es, everywhere test e.2 = true := by
  simp [everywhere, everywhereEntries_iff]

theorem everywhere_field {test : Value → Bool} (hnull : test .null = true) {es : Entries Value}
    (h : ∀ e ∈ es, everywhere test e.2 = true) (k : String) :
    everywhere test (field es k) = true := by
  rw [field]
  cases hk : es.get? k with
  | none => exact hnull
  | some v => exact h _ (Entries.mem_of_get? hk)

def ownKeysDistinct : Value → Bool
  | .object es => decide (Entries.keys es).Nodup
  | _ => true

def keysDistinct (v : Value) : Bool := v.everywhere ownKeysDistinct

def isNotNaN : Value → Bool
  | .float x => !x.isNaN
  | _ => true

def nanFree (v : Value) : Bool := v.everywhere isNotNaN

def ownDigitsWithin (limit : Option Nat) : Value → Bool
  | .int n => (Numeral.excess? limit (Numeral.ofInt n).whole.length).isNone
  | _ => true

/-- No integer of the tree has more digits than a limit allows. -/
def digitsWithin (limit : Option Nat) (v : Value) : Bool := v.everywhere (ownDigitsWithin limit)

@[simp] theorem keysDistinct_array {xs : List Value} :
    keysDistinct (.array xs) = true ↔ ∀ x ∈ xs, x.keysDistinct = true := by
  simp [keysDistinct, everywhere_array, ownKeysDistinct]

@[simp] theorem keysDistinct_object {es : Entries Value} :
    keysDistinct (.object es) = true ↔ es.keys.Nodup ∧ ∀ e ∈ es, e.2.keysDistinct = true := by
  simp [keysDistinct, everywhere_object, ownKeysDistinct]

@[simp] theorem nanFree_array {xs : List Value} :
    nanFree (.array xs) = true ↔ ∀ x ∈ xs, x.nanFree = true := by
  simp [nanFree, everywhere_array, isNotNaN]

@[simp] theorem nanFree_object {es : Entries Value} :
    nanFree (.object es) = true ↔ ∀ e ∈ es, e.2.nanFree = true := by
  simp [nanFree, everywhere_object, isNotNaN]

@[simp] theorem digitsWithin_array {limit : Option Nat} {xs : List Value} :
    digitsWithin limit (.array xs) = true ↔ ∀ x ∈ xs, x.digitsWithin limit = true := by
  simp [digitsWithin, everywhere_array, ownDigitsWithin]

@[simp] theorem digitsWithin_object {limit : Option Nat} {es : Entries Value} :
    digitsWithin limit (.object es) = true ↔ ∀ e ∈ es, e.2.digitsWithin limit = true := by
  simp [digitsWithin, everywhere_object, ownDigitsWithin]

@[simp] theorem digitsWithin_none (v : Value) : v.digitsWithin none = true := by
  induction v with
  | array xs ih => exact digitsWithin_array.mpr ih
  | object es ih => exact digitsWithin_object.mpr ih
  | _ => rfl

/-- A test that arrays pass, and objects without repeated keys. -/
structure Lifts (test : Value → Bool) : Prop where
  array : ∀ xs, test (.array xs) = true
  object : ∀ es, (Entries.keys es).Nodup → test (.object es) = true

theorem lifts_ownKeysDistinct : Lifts ownKeysDistinct where
  array _ := rfl
  object _ h := decide_eq_true h

theorem lifts_isNotNaN : Lifts isNotNaN := ⟨fun _ => rfl, fun _ _ => rfl⟩

theorem lifts_ownDigitsWithin (limit : Option Nat) : Lifts (ownDigitsWithin limit) :=
  ⟨fun _ => rfl, fun _ _ => rfl⟩

theorem everywhere_of_shape {test : Value → Bool} {v : Value}
    (h : v.shape = .null ∨ v.shape = .scalar) : everywhere test v = test v := by
  cases v with
  | array xs => simp [shape] at h
  | object es => simp [shape] at h
  | _ => rfl

/-! ## The ordered form -/

mutual

def ordered : Value → Value
  | .array xs => .array (orderedItems xs)
  | .object es => .object (Entries.sorted (orderedEntries es))
  | v => v

def orderedItems : List Value → List Value
  | [] => []
  | x :: xs => ordered x :: orderedItems xs

def orderedEntries : List (String × Value) → Entries Value
  | [] => []
  | (k, v) :: es => (k, ordered v) :: orderedEntries es

end

def SameTree (v w : Value) : Prop := v.ordered = w.ordered

theorem orderedItems_eq (xs : List Value) : orderedItems xs = xs.map ordered := by
  induction xs with
  | nil => rfl
  | cons x xs ih => rw [orderedItems, ih, List.map_cons]

theorem orderedEntries_eq (es : Entries Value) :
    orderedEntries es = Entries.mapValues ordered es := by
  induction es with
  | nil => rfl
  | cons e es ih =>
    obtain ⟨k, v⟩ := e
    rw [orderedEntries, ih, Entries.mapValues_cons]

@[simp] theorem ordered_null : ordered .null = .null := rfl

@[simp] theorem ordered_bool (b : Bool) : ordered (.bool b) = .bool b := rfl

@[simp] theorem ordered_int (n : Int) : ordered (.int n) = .int n := rfl

@[simp] theorem ordered_float (x : Binary64) : ordered (.float x) = .float x := rfl

@[simp] theorem ordered_string (s : String) : ordered (.string s) = .string s := rfl

@[simp] theorem ordered_array (xs : List Value) :
    ordered (.array xs) = .array (xs.map ordered) := by
  rw [ordered, orderedItems_eq]

@[simp] theorem ordered_object (es : Entries Value) :
    ordered (.object es) = .object (Entries.mapValues ordered es).sorted := by
  rw [ordered, orderedEntries_eq]

@[simp] theorem ordered_ordered (v : Value) : v.ordered.ordered = v.ordered := by
  induction v with
  | array xs ih =>
    rw [ordered_array, ordered_array, List.map_map]
    exact congrArg _ (List.map_congr_left ih)
  | object es ih =>
    have h : Entries.mapValues ordered (Entries.mapValues ordered es) =
        Entries.mapValues ordered es := by
      simp only [Entries.mapValues, List.map_map]
      exact List.map_congr_left fun e he => by simp [ih e he]
    rw [ordered_object, ordered_object, Entries.mapValues_sorted, h, Entries.sorted_sorted]
  | _ => rfl

@[simp] theorem isNull_ordered (v : Value) : v.ordered.isNull = v.isNull := by
  cases v <;> simp [isNull]

@[simp] theorem shape_ordered (v : Value) : v.ordered.shape = v.shape := by
  cases v <;> simp [shape]

theorem ordered_of_shape {v : Value} (h : v.shape = .null ∨ v.shape = .scalar) : v.ordered = v := by
  cases v <;> first | rfl | simp [shape] at h

@[simp] theorem items_ordered (v : Value) : v.ordered.items = v.items.map ordered := by
  cases v <;> simp [items]

theorem get?_ordered (es : Entries Value) (k : String) :
    (Entries.mapValues ordered es).sorted.get? k = (es.get? k).map ordered := by
  rw [Entries.get?_sorted, Entries.get?_mapValues]

@[simp] theorem field_ordered (es : Entries Value) (k : String) :
    field (Entries.mapValues ordered es).sorted k = (field es k).ordered := by
  rw [field, get?_ordered, field]
  cases es.get? k <;> rfl

theorem unwrapped_ordered (v : Value) : v.ordered.unwrapped = v.unwrapped.ordered := by
  cases v with
  | array xs =>
    rw [ordered_array]
    match xs with
    | [] => simp [unwrapped]
    | [x] => cases x <;> simp [unwrapped]
    | x :: y :: xs => simp [unwrapped]
  | _ => simp [unwrapped]

@[simp] theorem entries_ordered (v : Value) :
    v.ordered.entries = (Entries.mapValues ordered v.entries).sorted := by
  rw [entries, entries, unwrapped_ordered]
  cases v.unwrapped <;> simp

/-! ## The same tree -/

namespace SameTree

theorem refl (v : Value) : SameTree v v := rfl

theorem symm {v w : Value} (h : SameTree v w) : SameTree w v := Eq.symm h

theorem trans {u v w : Value} (h : SameTree u v) (k : SameTree v w) : SameTree u w := Eq.trans h k

theorem ordered (v : Value) : SameTree v.ordered v := ordered_ordered v

theorem isNull {v w : Value} (h : SameTree v w) : v.isNull = w.isNull := by
  rw [← isNull_ordered v, h, isNull_ordered]

theorem shape {v w : Value} (h : SameTree v w) : v.shape = w.shape := by
  rw [← shape_ordered v, h, shape_ordered]

/-- There is nothing in a scalar to put in order. -/
theorem eq_of_shape {v w : Value} (hv : v.shape = .null ∨ v.shape = .scalar) (h : SameTree v w) :
    v = w := by
  have hw : w.shape = .null ∨ w.shape = .scalar := h.shape ▸ hv
  rw [← ordered_of_shape hv, h, ordered_of_shape hw]

theorem field {es fs : Entries Value} (h : SameTree (.object es) (.object fs)) (k : String) :
    SameTree (field es k) (field fs k) := by
  simp only [SameTree, ordered_object, Value.object.injEq] at h
  rw [SameTree, ← field_ordered, h, field_ordered]

theorem items {v w : Value} (h : SameTree v w) : List.Forall₂ SameTree v.items w.items := by
  have hmap : v.items.map Value.ordered = w.items.map Value.ordered := by
    rw [← items_ordered, ← items_ordered, h]
  rwa [← List.forall₂_eq_eq_eq, List.forall₂_map_left_iff, List.forall₂_map_right_iff] at hmap

theorem array {xs ys : List Value} (h : List.Forall₂ SameTree xs ys) :
    SameTree (.array xs) (.array ys) := by
  rw [SameTree, ordered_array, ordered_array]
  refine congrArg _ ?_
  rw [← List.forall₂_eq_eq_eq, List.forall₂_map_left_iff, List.forall₂_map_right_iff]
  exact h

theorem array_iff {xs ys : List Value} :
    SameTree (.array xs) (.array ys) ↔ List.Forall₂ SameTree xs ys :=
  ⟨fun h => h.items, array⟩

theorem object {es fs : Entries Value} (he : es.keys.Nodup) (hf : fs.keys.Nodup)
    (h : ∀ k, (es.get? k).map Value.ordered = (fs.get? k).map Value.ordered) :
    SameTree (.object es) (.object fs) := by
  rw [SameTree, ordered_object, ordered_object]
  refine congrArg _ (Entries.sorted_eq_of_get? (by simpa using he) (by simpa using hf) ?_)
  intro k
  rw [Entries.get?_mapValues, Entries.get?_mapValues, h]

theorem get? {es fs : Entries Value} (h : SameTree (.object es) (.object fs)) (k : String) :
    (es.get? k).map Value.ordered = (fs.get? k).map Value.ordered := by
  simp only [SameTree, ordered_object, Value.object.injEq] at h
  rw [← get?_ordered, h, get?_ordered]

theorem object_iff {es fs : Entries Value} (he : es.keys.Nodup) (hf : fs.keys.Nodup) :
    SameTree (.object es) (.object fs) ↔ ∀ k, Option.Rel SameTree (es.get? k) (fs.get? k) := by
  have hrel (k : String) : (es.get? k).map Value.ordered = (fs.get? k).map Value.ordered ↔
      Option.Rel SameTree (es.get? k) (fs.get? k) := by
    cases es.get? k <;> cases fs.get? k <;> simp [SameTree]
  simp only [← hrel]
  exact ⟨get?, object he hf⟩

end SameTree

theorem everywhere_ordered {test : Value → Bool} (ht : Lifts test) {v : Value}
    (hk : v.keysDistinct = true) (h : everywhere test v = true) :
    everywhere test v.ordered = true := by
  induction v with
  | array xs ih =>
    rw [keysDistinct_array] at hk
    rw [everywhere_array] at h
    rw [ordered_array, everywhere_array]
    refine ⟨ht.array _, fun x hx => ?_⟩
    obtain ⟨y, hy, rfl⟩ := List.mem_map.mp hx
    exact ih y hy (hk y hy) (h.2 y hy)
  | object es ih =>
    rw [keysDistinct_object] at hk
    rw [everywhere_object] at h
    rw [ordered_object, everywhere_object]
    refine ⟨ht.object _ (Entries.nodup_sorted (by simpa using hk.1)), fun e he => ?_⟩
    obtain ⟨f, hf, rfl⟩ := List.mem_map.mp (Entries.mem_sorted.mp he)
    exact ih f hf (hk.2 f hf) (h.2 f hf)
  | _ => exact h

theorem keysDistinct_ordered {v : Value} (h : v.keysDistinct = true) :
    v.ordered.keysDistinct = true := everywhere_ordered lifts_ownKeysDistinct h h

end Value

end Reconciliation
