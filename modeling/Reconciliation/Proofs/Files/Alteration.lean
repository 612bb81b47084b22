import Reconciliation.Proofs.Files.Frame

/-! # What storing leaves alone, whether or not it succeeds

Storing may make directories before it fails, but only where there is nothing, and it writes at one
place at most. A path that could be followed to any other place leads to the same file as before.
-/
namespace Reconciliation.FileTree

def file? (t : FileTree) (p : Path) : Option Document :=
  match t.locate p with
  | .ok place => if t.isDirectoryAt place then none else t.document? place
  | .error _ => none

theorem file?_of_locate {t : FileTree} {p : Path} {place : List String}
    (h : t.locate p = .ok place) :
    t.file? p = if t.isDirectoryAt place then none else t.document? place := by
  rw [file?, h]

theorem Holds.file? {t u : FileTree} {p : Path} {d : Document} (h : Holds t u p d) :
    u.file? p = some d := by
  obtain ⟨place, hl, hdir⟩ := h.located
  rw [file?_of_locate hl, hdir, if_neg Bool.false_ne_true, document?, locate_eq hl, h.place,
    h.documents, Entries.get?_set, if_pos rfl]

/-! ## Alterations -/

/-- Documents differ only where they may be stored, none is lost, and directories were made only
where there was no document. -/
structure Alters (may : String → Prop) (t u : FileTree) : Prop where
  current : u.current = t.current
  kept : ∀ d ∈ t.directories, d ∈ u.directories
  others : ∀ k, ¬ may k → u.documents.get? k = t.documents.get? k
  grows : ∀ k, u.documents.get? k = none → t.documents.get? k = none
  fresh : ∀ d ∈ u.directories, d ∈ t.directories ∨ t.documents.get? d = none

variable {t u v : FileTree} {may : String → Prop}

theorem Extends.alters (h : Extends t u) : Alters may t u where
  current := h.current
  kept := h.kept
  others k _ := by rw [h.documents]
  grows k hk := by rwa [h.documents] at hk
  fresh := h.fresh

theorem Holds.alters {p : Path} {d : Document} (h : Holds t u p d) (hp : may (t.place p)) :
    Alters may t u where
  current := h.current
  kept := h.kept
  others k hk := by
    rw [h.documents, Entries.get?_set, if_neg]
    rintro rfl
    exact hk hp
  grows k hk := by
    rw [h.documents, Entries.get?_set] at hk
    split at hk
    · cases hk
    · exact hk
  fresh := h.fresh

namespace Alters

theorem refl (t : FileTree) : Alters may t t := (Extends.refl t).alters

theorem trans (h : Alters may t u) (k : Alters may u v) : Alters may t v where
  current := k.current.trans h.current
  kept d hd := k.kept d (h.kept d hd)
  others n hn := (k.others n hn).trans (h.others n hn)
  grows n hn := h.grows n (k.grows n hn)
  fresh d hd := by
    rcases k.fresh d hd with hd | hd
    · exact h.fresh d hd
    · exact Or.inr (h.grows d hd)

theorem place (h : Alters may t u) (p : Path) : u.place p = t.place p := by
  rw [FileTree.place, FileTree.place, resolve, resolve, h.current]

/-- A path that could be followed to a place that is left alone leads to the same file. -/
theorem file? (h : Alters may t u) {p : Path} {place : List String} (hl : t.locate p = .ok place)
    (hp : ¬ may (t.place p)) : u.file? p = t.file? p := by
  have hl' : u.locate p = .ok place := locate_mono h.current h.kept hl
  have hsame : u.document? place = t.document? place := by
    rw [document?, document?, locate_eq hl]
    exact h.others _ hp
  rw [file?_of_locate hl, file?_of_locate hl', hsame]
  by_cases hdir : t.isDirectoryAt place = true
  · rw [if_pos hdir, if_pos (isDirectoryAt_mono h.kept hdir)]
  · rw [if_neg hdir]
    cases hd : t.document? place with
    | none => exact ite_self none
    | some d =>
      rw [not_directory_of_fresh h.fresh (eq_false_of_ne_true hdir) hd, if_neg Bool.false_ne_true]

end Alters

/-! ## Storing that fails -/

variable {p : Path} {d : Document}

theorem extends_of_save {e : FileError} (h : (t.save p d).result = .error e) :
    Extends t (t.save p d).files := by
  have hmade := makeDirectories_extends t p.parent
  rw [save, Stored.andThen] at h ⊢
  split
  · rename_i hdone
    rw [hdone] at h
    cases hw : (t.makeDirectories p.parent).files.write p d with
    | error e => exact hmade
    | ok u =>
      rw [hw] at h
      cases h
  · exact hmade

theorem save_alters (t : FileTree) (d : Document) (hp : may (t.place p)) :
    Alters may t (t.save p d).files := by
  cases h : (t.save p d).result with
  | error e => exact (extends_of_save h).alters
  | ok _ => exact (save_spec h).alters hp

end Reconciliation.FileTree
