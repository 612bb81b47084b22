import Reconciliation.Proofs.Report.Disclosure
import Reconciliation.Proofs.Schema.Decision

/-! # Cells that show one tree

A report puts the keys of an object in order, at every depth of the object. It leaves an array as it
is, and the objects in it keep the order of their entries. So a stored array and a merged one can be
one tree and have cells that differ, where a stored and a merged object have the same cell. The tree
is read back from either cell.
-/
namespace Reconciliation

open Value (SameTree)

namespace Report

/-- Of one tree only an array can be shown in two ways. -/
theorem shownAlike_iff {v w : Value} (h : SameTree v w) :
    ShownAlike v w ↔ (v.shape = .array → v = w) := by
  constructor
  · rintro (heq | ⟨hobject, -⟩) harray
    · exact heq
    · rw [hobject] at harray
      cases harray
  · intro harray
    cases hshape : v.shape with
    | null => exact .inl (h.eq_of_shape (.inl hshape))
    | scalar => exact .inl (h.eq_of_shape (.inr hshape))
    | object => exact .inr ⟨hshape, h⟩
    | array => exact .inl (harray hshape)

def Restores (cell v : Value) : Prop :=
  ∃ text u, cell = .string text ∧ Json.read? text = some u ∧ SameTree u v

theorem restores_shown {v : Value} (hv : v.keysDistinct = true)
    (h : v.shape = .object ∨ v.shape = .array) : Restores (shown v) v := by
  cases v with
  | object es => exact ⟨_, _, rfl, Json.read?_print_sorted rfl hv, SameTree.ordered _⟩
  | array xs => exact ⟨_, _, rfl, Json.read?_print rfl hv, SameTree.refl _⟩
  | _ => simp [Value.shape] at h

section OneTree

variable {v w : Value} (hv : v.keysDistinct = true) (hw : w.keysDistinct = true)
  (h : SameTree v w)
include hv hw h

theorem shown_eq_iff_of_sameTree : shown v = shown w ↔ (v.shape = .array → v = w) := by
  rw [shown_eq_iff ⟨h.shape, hv, hw⟩, shownAlike_iff h]

/-- The cells of a row are the same if they are masked, or if they would be. -/
theorem changeRow_of_sameTree (name : String) (status : ChangeStatus) :
    ∃ previous merged, changeRow ⟨name, status, v, w⟩ =
        [.string name, .string status.name, previous, merged] ∧
      (previous = merged ↔ status = .writeOnly ∨ (v.shape = .array → v = w)) := by
  refine ⟨_, _, rfl, ?_⟩
  dsimp only
  by_cases hmasked : status = .writeOnly
  · rw [if_pos hmasked, if_pos hmasked]
    exact iff_of_true rfl (.inl hmasked)
  · rw [if_neg hmasked, if_neg hmasked, shown_eq_iff_of_sameTree hv hw h]
    exact (or_iff_right hmasked).symm

/-- One tree has one cell, unless it is an array whose objects list their entries in other orders; the
row of a property shows the difference unless it is masked. The cell of an object or an array is read
back as the tree. -/
theorem cells_of_sameTree :
    (shown v = shown w ↔ (v.shape = .array → v = w)) ∧
      (∀ name status, ∃ previous merged, changeRow ⟨name, status, v, w⟩ =
          [.string name, .string status.name, previous, merged] ∧
        (previous = merged ↔ status = .writeOnly ∨ (v.shape = .array → v = w))) ∧
      (v.shape = .object ∨ v.shape = .array → Restores (shown v) v) :=
  ⟨shown_eq_iff_of_sameTree hv hw h, changeRow_of_sameTree hv hw h, restores_shown hv⟩

end OneTree

/-! ## A team, and rules that are stored and merged -/

def mergedTeam : Value :=
  .object [("name", .string "ops"),
    ("members", .array [.object [("login", .string "a"), ("active", .bool true)]])]

def storedTeam : Value :=
  .object [("members", .array [.object [("active", .bool true), ("login", .string "a")]]),
    ("name", .string "ops")]

theorem cells_mergedTeam :
    storedTeam.keysDistinct = true ∧ mergedTeam.keysDistinct = true ∧
      SameTree storedTeam mergedTeam ∧ shown storedTeam = shown mergedTeam ∧
      Restores (shown storedTeam) storedTeam := by
  have hstored : storedTeam.keysDistinct = true := by decide +kernel
  have hmerged : mergedTeam.keysDistinct = true := by decide +kernel
  have hsame : storedTeam.ordered = mergedTeam.ordered := by decide +kernel
  obtain ⟨hshown, -, hrestores⟩ := cells_of_sameTree hstored hmerged hsame
  exact ⟨hstored, hmerged, hsame, hshown.mpr nofun, hrestores (Or.inl rfl)⟩

def ruleSchema : Schema :=
  ⟨[{ name := "rules", kind := .list,
      element := some ⟨[{ name := "name", kind := .string }, { name := "action", kind := .string }],
        false⟩ }], false⟩

def storedRules : Value :=
  .array [.object [("action", .string "allow"), ("name", .string "ssh")]]

def mergedRules : Value :=
  .array [.object [("name", .string "ssh"), ("action", .string "allow")]]

/-- A read that changes nothing, and whose report shows two texts. -/
theorem rules_shown_apart :
    (ruleSchema.reconcile .stored (.object [("rules", mergedRules)])
        [("rules", storedRules)]).result = .ok [("rules", mergedRules)] ∧
      SameTree storedRules mergedRules ∧ shown storedRules ≠ shown mergedRules ∧
      changeRows (ruleSchema.changes [("rules", storedRules)] [("rules", mergedRules)]) =
        [changeHeader, [.string "rules", .string "UNCHANGED",
          .string "[\x7b\"action\":\"allow\",\"name\":\"ssh\"\x7d]",
          .string "[\x7b\"name\":\"ssh\",\"action\":\"allow\"\x7d]"]] := by
  have hsame : storedRules.ordered = mergedRules.ordered := by decide +kernel
  exact ⟨by decide +kernel, hsame, by decide +kernel, by decide +kernel⟩

end Report

end Reconciliation
