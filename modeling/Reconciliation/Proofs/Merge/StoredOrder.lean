import Reconciliation.Proofs.State.Secrets
import Reconciliation.Proofs.Value.Decision

/-! # Which order a list is put into

If no item of either list is the same as two items of the other, arranging loses nothing and makes up
nothing: the items that are received again come first, in the stored order, and the new ones follow
as they are received.
-/
namespace Reconciliation

namespace Merge

def keptItems (same : Value → Value → Bool) (stored remote : List Value) : List Value :=
  stored.filter fun s => remote.any (same s)

/-- The received items that no stored one is the same as, in the order in which they are received. -/
def newItems (same : Value → Value → Bool) (stored remote : List Value) : List Value :=
  remote.filter fun r => !stored.any fun s => same s r

def foundItems (same : Value → Value → Bool) (stored remote : List Value) : List Value :=
  stored.filterMap fun s => remote.find? (same s)

variable {same : Value → Value → Bool} {stored remote remote' : List Value}

theorem arranged_eq : arranged same stored remote =
    foundItems same stored remote ++ newItems same stored remote := rfl

theorem forall₂_foundItems : List.Forall₂ (fun s r => same s r = true)
    (keptItems same stored remote) (foundItems same stored remote) := by
  have hfound := Lists.forall₂_filterMap (R := fun s r => same s r = true)
    (f := fun s => remote.find? (same s)) fun s (_ : s ∈ stored) r hr => List.find?_some hr
  simp only [isSome_find?] at hfound
  exact hfound

/-- By induction on the stored items: what one of them is the same as, the others are not. -/
theorem foundItems_perm (hr : ∀ s ∈ stored, remote.countP (same s) ≤ 1)
    (hs : ∀ r ∈ remote, stored.countP (same · r) ≤ 1) :
    (foundItems same stored remote).Perm (remote.filter fun r => stored.any (same · r)) := by
  induction stored with
  | nil => simp [foundItems]
  | cons s ss ih =>
    obtain ⟨hone, hrest⟩ := List.forall_mem_cons.mp hr
    have hless : ∀ r ∈ remote, ss.countP (same · r) ≤ 1 := fun r hr =>
      Nat.le_trans (List.sublist_cons_self s ss).countP_le (hs r hr)
    have honly : ∀ r ∈ remote, same s r = true → ss.any (same · r) = false := by
      intro r hr hsr
      have hcount := hs r hr
      rw [List.countP_cons_of_pos (p := (same · r)) hsr] at hcount
      rw [List.any_eq_false]
      exact List.countP_eq_zero.mp (by omega)
    calc foundItems same (s :: ss) remote
        = remote.filter (same s) ++ foundItems same ss remote := by
          rw [Lists.filter_eq_find? hone, foundItems, List.filterMap_cons]
          cases remote.find? (same s) <;> rfl
      List.Perm _ (remote.filter (same s) ++ remote.filter fun r => ss.any (same · r)) :=
          (ih hrest hless).append_left _
      List.Perm _ (remote.filter fun r => (s :: ss).any (same · r)) :=
          Lists.filter_or_perm honly

theorem arranged_perm (h : OneToOne same stored remote) :
    (arranged same stored remote).Perm remote := by
  obtain ⟨hr, hs⟩ := oneToOne_iff.mp h
  exact ((foundItems_perm hr hs).append_right _).trans (List.filter_append_perm _ remote)

/-- Only the order of the new items matters. -/
theorem arranged_congr (h : OneToOne same stored remote) (hperm : remote.Perm remote')
    (hnew : newItems same stored remote' = newItems same stored remote) :
    arranged same stored remote' = arranged same stored remote := by
  have hfound : foundItems same stored remote = foundItems same stored remote' :=
    List.filterMap_congr fun s hs => Lists.find?_perm ((oneToOne_iff.mp h).1 s hs) hperm
  rw [arranged_eq, arranged_eq, hnew, hfound]

theorem newItems_arranged :
    newItems same stored (arranged same stored remote) = newItems same stored remote := by
  have hfound : newItems same stored (foundItems same stored remote) = [] := by
    rw [newItems, List.filter_eq_nil_iff]
    intro r hr hnew
    obtain ⟨s, hs, hsr⟩ := List.mem_filterMap.mp hr
    rw [Bool.not_eq_true', List.any_eq_false] at hnew
    exact hnew s hs (List.find?_some hsr)
  have hnew : newItems same stored (newItems same stored remote) = newItems same stored remote := by
    rw [newItems, List.filter_eq_self]
    exact fun r hr => (List.mem_filter.mp hr).2
  rw [arranged_eq]
  calc newItems same stored (foundItems same stored remote ++ newItems same stored remote)
      = newItems same stored (foundItems same stored remote) ++
          newItems same stored (newItems same stored remote) := List.filter_append _ _
    _ = newItems same stored remote := by rw [hfound, hnew, List.nil_append]

theorem arranged_arranged (h : OneToOne same stored remote) :
    arranged same stored (arranged same stored remote) = arranged same stored remote :=
  arranged_congr h (arranged_perm h).symm newItems_arranged

theorem oneToOne_of_places (h : ∀ (i j : Nat) (s r : Value), stored[i]? = some s →
    remote[j]? = some r → i ≠ j → same s r = false) : OneToOne same stored remote := by
  have hplace : ∀ {i j : Nat} {s r : Value}, stored[i]? = some s → remote[j]? = some r →
      same s r = true → i = j := by
    intro i j s r hs hr hsr
    by_contra hne
    rw [h i j s r hs hr hne] at hsr
    cases hsr
  exact ⟨fun hs hr hr' hsr hsr' => (hplace hs hr hsr).symm.trans (hplace hs hr' hsr'),
    fun hs hs' hr hsr hsr' => (hplace hs hr hsr).trans (hplace hs' hr hsr').symm⟩

/-- A list in which each item is the same as the one that is stored at its place stays as it is. -/
theorem arranged_of_forall₂ (h : OneToOne same stored remote)
    (hsame : List.Forall₂ (fun s r => same s r = true) stored remote) :
    arranged same stored remote = remote := by
  have hfind : List.Forall₂ (fun s r => remote.find? (same s) = some r) stored remote := by
    refine Lists.forall₂_of_getElem? hsame.length_eq fun k s r hs hr => ?_
    obtain ⟨r', hr', hsr⟩ := Lists.getElem?_left hsame hs
    obtain rfl := Option.some.inj (hr'.symm.trans hr)
    exact find?_eq h hs hr hsr
  have hfound : foundItems same stored remote = remote := Lists.filterMap_of_forall₂ hfind
  have hnew : newItems same stored remote = [] := by
    rw [newItems, List.filter_eq_nil_iff]
    intro r hr hnone
    obtain ⟨s, hs, hsr⟩ := Lists.exists_left hsame hr
    rw [Bool.not_eq_true', List.any_eq_false] at hnone
    exact hnone s hs hsr
  rw [arranged_eq, hfound, hnew, List.append_nil]

end Merge

namespace Property

open Merge

theorem reorder_array {p : Property} (hp : p.shouldIgnoreOrder = true) (stored remote : List Value) :
    p.reorder (.array stored) (.array remote) =
      .ok (.array (arranged p.sameItem stored remote)) := by
  rw [reorder, hp]
  rfl

/-- A received list follows the stored one: it is permuted so that the items that were stored before
come first, in the stored order, and the new ones follow in their own. So the order of the others as
they are received does not matter, and a list that follows already is left as it is. -/
theorem reorder_follows {p : Property} (hp : p.shouldIgnoreOrder = true) {stored remote : List Value}
    (h : OneToOne p.sameItem stored remote) :
    ∃ found, p.reorder (.array stored) (.array remote) =
        .ok (.array (found ++ newItems p.sameItem stored remote)) ∧
      (found ++ newItems p.sameItem stored remote).Perm remote ∧
      List.Forall₂ (fun s r => p.sameItem s r = true) (keptItems p.sameItem stored remote) found ∧
      (∀ remote', remote.Perm remote' →
        newItems p.sameItem stored remote' = newItems p.sameItem stored remote →
        p.reorder (.array stored) (.array remote') = p.reorder (.array stored) (.array remote)) ∧
      p.reorder (.array stored) (.array (found ++ newItems p.sameItem stored remote)) =
        .ok (.array (found ++ newItems p.sameItem stored remote)) := by
  refine ⟨foundItems p.sameItem stored remote, reorder_array hp _ _, arranged_perm h,
    forall₂_foundItems, fun remote' hperm hnew => ?_, ?_⟩
  · rw [reorder_array hp, reorder_array hp, arranged_congr h hperm hnew]
  · rw [← arranged_eq, reorder_array hp, arranged_arranged h]

def member (name token : String) : Value :=
  .object [("name", .string name), ("token", .string token)]

def named (name : String) : Value := .object [("name", .string name)]

def storedTeam : List Value := [member "a" "A", member "b" "B", member "c" "C"]

def receivedTeam : List Value := ["d", "c", "a", "e"].map named

/-- One member of the team is gone and two are new. The two that stay may be received anywhere. -/
theorem receivedTeam_follows :
    sampleMembers.shouldIgnoreOrder = true ∧
      OneToOne sampleMembers.sameItem storedTeam receivedTeam ∧
      sampleMembers.reorder (.array storedTeam) (.array receivedTeam) =
        .ok (.array (["a", "c", "d", "e"].map named)) ∧
      sampleMembers.reorder (.array storedTeam) (.array (["a", "d", "e", "c"].map named)) =
        .ok (.array (["a", "c", "d", "e"].map named)) ∧
      sampleMembers.reorder (.array storedTeam) (.array (["a", "c", "d", "e"].map named)) =
        .ok (.array (["a", "c", "d", "e"].map named)) := by
  have hp : sampleMembers.shouldIgnoreOrder = true := rfl
  have hone : OneToOne sampleMembers.sameItem storedTeam receivedTeam := by decide +kernel
  have hfirst : sampleMembers.reorder (.array storedTeam) (.array receivedTeam) =
      .ok (.array (["a", "c", "d", "e"].map named)) := by decide +kernel
  obtain ⟨found, hfound, -, -, hother, hagain⟩ := reorder_follows hp hone
  have hperm : receivedTeam.Perm (["a", "d", "e", "c"].map named) := by decide +kernel
  have hnew : newItems sampleMembers.sameItem storedTeam (["a", "d", "e", "c"].map named) =
      newItems sampleMembers.sameItem storedTeam receivedTeam := by decide +kernel
  have hlist := Value.array.inj (Except.ok.inj (hfound.symm.trans hfirst))
  rw [hlist] at hagain
  exact ⟨hp, hone, hfirst, (hother _ hperm hnew).trans hfirst, hagain⟩

end Property

end Reconciliation
