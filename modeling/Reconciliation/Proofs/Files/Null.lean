import Reconciliation.Proofs.Files.Frame
import Reconciliation.Proofs.Traced

/-! # Where a document cannot be stored

Whether a document can be stored is a matter of its path alone. A path with a null character is
found out only when it is followed, so the directories above it may have been made before.
-/
namespace Reconciliation.FileTree

variable {t : FileTree} {p : Path} {e : FileError}

/-- What is stored does not matter for whether it can be stored. -/
theorem result_save_eq (t : FileTree) (p : Path) (d d' : Document) :
    (t.save p d).result = (t.save p d').result := by
  have hwrite (u : FileTree) : (Stored.ofExcept u (u.write p d)).result =
      (Stored.ofExcept u (u.write p d')).result := by
    rw [write, write]
    cases u.locate p with
    | error e => rfl
    | ok place =>
      change (Stored.ofExcept u (if _ then _ else _)).result =
        (Stored.ofExcept u (if _ then _ else _)).result
      split
      · rfl
      · rfl
  rw [save, save, Stored.andThen, Stored.andThen]
  cases (t.makeDirectories p.parent).result with
  | error e => rfl
  | ok _ => exact hwrite _

/-! ## Null characters -/

theorem cause_step {place : List String} {part : String} {cause : FileError.Cause}
    (h : t.step place part = .error cause) : cause ≠ .nullCharacter := by
  rw [step] at h
  split at h
  · split at h
    · cases h
    · split at h
      · cases h
        decide
      · cases h
  · split at h
    · cases h
      decide
    · cases h
      decide

theorem cause_foldlM_step {place parts : List String} {cause : FileError.Cause}
    (h : parts.foldlM t.step place = .error cause) : cause ≠ .nullCharacter := by
  induction parts generalizing place with
  | nil => cases h
  | cons part parts ih =>
    rw [List.foldlM_cons] at h
    rcases Traced.error_bind.mp h with h | ⟨next, -, h⟩
    · exact cause_step h
    · exact ih h

/-- A path that cannot be followed holds a null character if that is the reason. -/
theorem cause_locate (h : t.locate p = .error e) :
    e.cause = .nullCharacter ↔ p.hasNull = true := by
  rw [locate] at h
  split at h
  · rename_i hnull
    cases h
    exact ⟨fun _ => hnull, fun _ => rfl⟩
  · rename_i hnull
    have hcause : e.cause ≠ .nullCharacter := by
      split at h
      · cases h
        simp
      · obtain ⟨cause, hfold, rfl⟩ := Traced.error_mapError.mp h
        exact cause_foldlM_step hfold
    exact ⟨fun heq => absurd heq hcause, fun heq => absurd heq hnull⟩

theorem hasNull_of_locate {place : List String} (h : t.locate p = .ok place) :
    p.hasNull = false := (foldlM_of_locate h).1

theorem cause_makeDirectory (h : t.makeDirectory p = .error e) :
    e.cause = .nullCharacter ↔ p.hasNull = true := by
  rw [makeDirectory] at h
  rcases Traced.error_bind.mp h with h | ⟨place, hl, h⟩
  · exact cause_locate h
  · split at h
    · cases h
      rw [hasNull_of_locate hl]
      simp
    · cases h

theorem cause_ensureDirectory (h : (t.ensureDirectory p).result = .error e) :
    e.cause = .nullCharacter ↔ p.hasNull = true := by
  rw [ensureDirectory] at h
  split at h
  · cases h
  · rename_i made
    split at h
    · cases h
    · cases h
      exact cause_makeDirectory made

theorem hasNull_of_parent (h : p.parent.hasNull = true) : p.hasNull = true := by
  rw [Path.hasNull, List.any_eq_true] at h ⊢
  obtain ⟨part, hmem, hpart⟩ := h
  exact ⟨part, (List.dropLast_sublist p.parts).subset hmem, hpart⟩

theorem cause_makeDirectories (h : (t.makeDirectories p).result = .error e) :
    e.cause = .nullCharacter ↔ p.hasNull = true := by
  induction hn : p.parts.length using Nat.strongRecOn generalizing t p with
  | ind n ih =>
    subst hn
    rw [makeDirectories] at h
    split at h
    · rename_i hmake
      split at h
      · exact cause_ensureDirectory h
      · rename_i hne
        have hlt : p.parent.parts.length < p.parts.length := by
          have := List.length_pos_iff.mpr hne
          simp only [Path.parent, List.length_dropLast]
          omega
        -- The path itself could be followed as far as there are directories.
        have hnull : ¬p.hasNull = true := by
          intro hp
          cases (cause_makeDirectory hmake).mpr hp
        rw [Stored.andThen] at h
        split at h
        · exact cause_ensureDirectory h
        · have hparent := ih _ hlt h rfl
          refine ⟨fun hcause => absurd (hasNull_of_parent (hparent.mp hcause)) hnull, ?_⟩
          intro hp
          exact absurd hp hnull
    · exact cause_ensureDirectory h

theorem cause_write {d : Document} (h : t.write p d = .error e) :
    e.cause = .nullCharacter ↔ p.hasNull = true := by
  rw [write] at h
  rcases Traced.error_bind.mp h with h | ⟨place, hl, h⟩
  · exact cause_locate h
  · split at h
    · cases h
      rw [hasNull_of_locate hl]
      simp
    · cases h

theorem write_of_hasNull (h : p.hasNull = true) (d : Document) :
    t.write p d = .error ⟨.nullCharacter, p⟩ := by
  rw [write, locate, if_pos h]
  rfl

/-- A null character is why nothing can be stored if it stands in the path of the directory, or the
directory can be made. -/
theorem save_null_iff {d : Document} :
    (∃ e, (t.save p d).result = .error e ∧ e.cause = .nullCharacter) ↔
      p.hasNull = true ∧
        (p.parent.hasNull = true ∨ (t.makeDirectories p.parent).result = .ok ()) := by
  rw [save, Stored.andThen]
  cases hmake : (t.makeDirectories p.parent).result with
  | error e =>
    have hcause := cause_makeDirectories hmake
    dsimp only
    rw [hmake]
    constructor
    · rintro ⟨e', he, hnull⟩
      obtain rfl := Except.error.inj he
      have hparent := hcause.mp hnull
      exact ⟨hasNull_of_parent hparent, .inl hparent⟩
    · rintro ⟨-, hparent | h⟩
      · exact ⟨e, rfl, hcause.mpr hparent⟩
      · cases h
  | ok _ =>
    dsimp only
    constructor
    · rintro ⟨e, he, hnull⟩
      refine ⟨?_, .inr rfl⟩
      cases hw : (t.makeDirectories p.parent).files.write p d with
      | error e' =>
        rw [hw] at he
        obtain rfl := Except.error.inj he
        exact (cause_write hw).mp hnull
      | ok u =>
        rw [hw] at he
        cases he
    · rintro ⟨hnull, -⟩
      refine ⟨⟨.nullCharacter, p⟩, ?_, rfl⟩
      rw [write_of_hasNull hnull]
      rfl

end Reconciliation.FileTree
