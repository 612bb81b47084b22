import Reconciliation.Proofs.Merge.Coercion

/-! # Merging a set by plain scans

The merge of a set looks stored elements up in an index and remembers the hashes of what it has kept.
Two scans come to the same without either: one over the stored elements, for the first of a hash, and
one over the output so far, for a duplicate.
-/
namespace Reconciliation

namespace Merge

/-- Merges the remote elements in order, each with the first stored element of its hash, or with null
if there is none. The merged element is appended to the output, unless the output holds an element of
its hash: then it is recorded as a duplicate. -/
def scan (property : String) (h : Hashes) (merge : Value → Value → Merged Value)
    (stored output : List Value) : List Value → Merged (List Value)
  | [] => pure output
  | r :: rs => do
    let merged ← merge r (counterpart h stored r)
    if output.any fun o => o.hash == merged.hash then do
      Traced.record (.duplicateSkipped property merged.hash)
      scan property h merge stored output rs
    else scan property h merge stored (output ++ [merged]) rs

def Emitted (seen : List UInt32) (output : List Value) : Prop :=
  ∀ k, k ∈ seen ↔ ∃ o ∈ output, o.hash = k

theorem emitted_nil : Emitted [] [] := by
  intro k
  simp

namespace Emitted

variable {seen : List UInt32} {output : List Value}

theorem append (h : Emitted seen output) (v : Value) :
    Emitted (v.hash :: seen) (output ++ [v]) := by
  intro k
  rw [List.mem_cons, h k]
  simp [or_comm, eq_comm]

theorem any_eq_true_iff (h : Emitted seen output) (k : UInt32) :
    (output.any fun o => o.hash == k) = true ↔ k ∈ seen := by
  rw [h k, List.any_eq_true]
  simp only [beq_iff_eq]

end Emitted

section Scan

variable {name : String} {h : Hashes} {merge : Value → Value → Merged Value} {stored : List Value}

/-- A scan appends to its output what a merge keeps that has seen the hashes of the output: the same
elements, after the same duplicates, up to the same error. -/
theorem scan_eq_distinct {seen : List UInt32} {output : List Value} (hseen : Emitted seen output)
    (remote : List Value) : scan name h merge stored output remote =
      distinct name merge (counterpart h stored) seen remote >>= fun kept =>
        pure (output ++ kept) := by
  induction remote generalizing seen output with
  | nil => rw [scan, distinct, Traced.pure_bind, List.append_nil]
  | cons r rs ih =>
    rw [scan, distinct, bind_assoc]
    apply bind_congr
    intro m
    simp only [hseen.any_eq_true_iff]
    by_cases hm : m.hash ∈ seen
    · rw [if_pos hm, if_pos hm, bind_assoc]
      apply bind_congr
      intro _
      exact ih hseen
    · rw [if_neg hm, if_neg hm, ih (hseen.append m), bind_assoc]
      apply bind_congr
      intro kept
      rw [Traced.pure_bind, List.append_assoc, List.singleton_append]

theorem set_eq_scan (remote : List Value) :
    set name h merge remote stored = scan name h merge stored [] remote := by
  rw [set_eq, scan_eq_distinct emitted_nil]
  exact (Traced.bind_pure_eq _).symm

/-- What a scan has put out is not looked at otherwise, so it can be taken up in the middle. -/
theorem scan_append (output xs ys : List Value) :
    scan name h merge stored output (xs ++ ys) =
      scan name h merge stored output xs >>= fun done => scan name h merge stored done ys := by
  induction xs generalizing output with
  | nil => rfl
  | cons x xs ih =>
    rw [List.cons_append, scan, scan, bind_assoc]
    apply bind_congr
    intro m
    split
    · rw [bind_assoc]
      apply bind_congr
      intro _
      exact ih output
    · exact ih _

end Scan

end Merge

namespace Property

open Merge

def scanSet (p : Property) (remote stored : Value) : Merged Value := do
  let remote ← Traced.ofExcept (remoteItems p.name remote)
  let merged ← scan p.name p.setHashes p.mergeObject stored.items [] remote
  pure (.array merged)

/-- The index over the stored elements and the hashes seen change nothing: a set is merged as the
scans do it, to the same result or the same error, with the same duplicates recorded in between. -/
theorem mergeSet_eq_scanSet (p : Property) (remote stored : Value) :
    p.mergeSet remote stored = p.scanSet remote stored := by
  rw [mergeSet, scanSet]
  apply bind_congr
  intro rs
  rw [← set_eq_scan]
  rfl

end Property

end Reconciliation
