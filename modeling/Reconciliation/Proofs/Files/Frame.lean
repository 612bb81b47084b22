import Reconciliation.Files.Tree
import Reconciliation.Proofs.Entries

/-! # What a stored document changes

Storing a document makes directories where there was nothing and writes at one place. What is read
at any other place stays as it is.
-/
namespace Reconciliation.FileTree

/-- The key under which a tree keeps what a path leads to. -/
def place (t : FileTree) (p : Path) : String := placeText (t.resolve p).parts

theorem foldlM_step {t : FileTree} {parts place done : List String}
    (h : parts.foldlM t.step done.reverse = .ok place) :
    place = (parts.foldl Path.follow done).reverse := by
  induction parts generalizing done with
  | nil => exact (Except.ok.inj h).symm
  | cons part parts ih =>
    rw [List.foldlM_cons] at h
    rw [List.foldl_cons]
    refine ih ?_
    rw [step] at h
    split at h
    · rw [Path.follow]
      split at h
      · rename_i hup
        rw [if_pos hup]
        rw [List.dropLast_reverse] at h
        exact h
      · rename_i hup
        rw [if_neg hup, List.reverse_cons]
        split at h
        · cases h
        · exact h
    · split at h <;> cases h

theorem foldlM_of_locate {t : FileTree} {p : Path} {place : List String}
    (h : t.locate p = .ok place) :
    p.hasNull = false ∧ p.text.utf8ByteSize ≤ pathLimit ∧
      (t.current.join p).parts.foldlM t.step [] = .ok place := by
  rw [locate] at h
  split at h
  · cases h
  · rename_i hnull
    split at h
    · cases h
    · rename_i hlong
      cases hfold : (t.current.join p).parts.foldlM t.step [] with
      | error cause => rw [hfold] at h; cases h
      | ok found =>
        rw [hfold] at h
        exact ⟨eq_false_of_ne_true hnull, Nat.le_of_not_lt hlong,
          congrArg _ (Except.ok.inj h)⟩

theorem locate_eq {t : FileTree} {p : Path} {place : List String} (h : t.locate p = .ok place) :
    placeText place = t.place p := by
  obtain ⟨-, -, hfold⟩ := foldlM_of_locate h
  rw [FileTree.place, resolve, Path.resolve]
  have hfold : (t.current.join p).parts.foldlM t.step ([] : List String).reverse = .ok place := hfold
  exact congrArg placeText (foldlM_step hfold)

/-! ## Trees with more directories -/

structure Extends (t u : FileTree) : Prop where
  current : u.current = t.current
  kept : ∀ d ∈ t.directories, d ∈ u.directories
  documents : u.documents = t.documents
  fresh : ∀ d ∈ u.directories, d ∈ t.directories ∨ t.documents.get? d = none

theorem Extends.refl (t : FileTree) : Extends t t :=
  ⟨rfl, fun _ h => h, rfl, fun _ h => Or.inl h⟩

theorem Extends.trans {t u v : FileTree} (h : Extends t u) (k : Extends u v) : Extends t v where
  current := k.current.trans h.current
  kept d hd := k.kept d (h.kept d hd)
  documents := k.documents.trans h.documents
  fresh d hd := by
    rcases k.fresh d hd with hd | hd
    · exact h.fresh d hd
    · exact Or.inr (h.documents ▸ hd)

theorem makeDirectory_extends {t u : FileTree} {p : Path} (h : t.makeDirectory p = .ok u) :
    Extends t u := by
  rw [makeDirectory] at h
  cases hl : t.locate p with
  | error e => rw [hl] at h; cases h
  | ok place =>
    rw [hl] at h
    change (if _ then _ else _) = _ at h
    split at h
    · cases h
    · rename_i hfree
      rw [Bool.or_eq_true, not_or, Option.not_isSome_iff_eq_none] at hfree
      obtain rfl := Except.ok.inj h
      refine ⟨rfl, fun d hd => List.mem_append_left _ hd, rfl, fun d hd => ?_⟩
      rcases List.mem_append.mp hd with hd | hd
      · exact Or.inl hd
      · exact Or.inr (List.mem_singleton.mp hd ▸ hfree.2)

theorem ensureDirectory_extends (t : FileTree) (p : Path) :
    Extends t (t.ensureDirectory p).files := by
  rw [ensureDirectory]
  split
  · rename_i u hu
    exact makeDirectory_extends hu
  · split
    · exact Extends.refl t
    · exact Extends.refl t

theorem makeDirectories_extends (t : FileTree) (p : Path) :
    Extends t (t.makeDirectories p).files := by
  induction hn : p.parts.length using Nat.strongRecOn generalizing t p with
  | ind n ih =>
    subst hn
    rw [makeDirectories]
    split
    · split
      · exact ensureDirectory_extends t p
      · rename_i hne
        have hlt : p.parent.parts.length < p.parts.length := by
          have := List.length_pos_iff.mpr hne
          simp only [Path.parent, List.length_dropLast]
          omega
        have hparent := ih _ hlt t p.parent rfl
        rw [Stored.andThen]
        split
        · exact hparent.trans (ensureDirectory_extends _ p)
        · exact hparent
    · exact ensureDirectory_extends t p

/-! ## Storing a document -/

/-- The tree `u` comes from `t` by storing a document under a path. -/
structure Holds (t u : FileTree) (p : Path) (d : Document) : Prop where
  current : u.current = t.current
  kept : ∀ e ∈ t.directories, e ∈ u.directories
  documents : u.documents = t.documents.set (t.place p) d
  fresh : ∀ e ∈ u.directories, e ∈ t.directories ∨ t.documents.get? e = none
  located : ∃ place, u.locate p = .ok place ∧ u.isDirectoryAt place = false

theorem step_mono {t u : FileTree} (h : ∀ d ∈ t.directories, d ∈ u.directories)
    {place next : List String} {part : String} (hs : t.step place part = .ok next) :
    u.step place part = .ok next := by
  rw [step] at hs
  split at hs
  · rename_i hd
    have hd' : u.isDirectoryAt place = true := by
      rw [isDirectoryAt, Bool.or_eq_true, List.contains_iff_mem] at hd ⊢
      exact hd.imp_right (h _)
    rw [step, if_pos hd', hs]
  · split at hs <;> cases hs

theorem locate_mono {t u : FileTree} (hc : u.current = t.current)
    (h : ∀ d ∈ t.directories, d ∈ u.directories) {p : Path} {place : List String}
    (hl : t.locate p = .ok place) : u.locate p = .ok place := by
  obtain ⟨hnull, hlong, hfold⟩ := foldlM_of_locate hl
  have hmono : ∀ (parts done : List String), parts.foldlM t.step done = .ok place →
      parts.foldlM u.step done = .ok place := by
    intro parts
    induction parts with
    | nil => exact fun _ h => h
    | cons part parts ih =>
      intro done hp
      rw [List.foldlM_cons] at hp ⊢
      cases hs : t.step done part with
      | error e => rw [hs] at hp; cases hp
      | ok next =>
        rw [hs] at hp
        rw [step_mono h hs]
        exact ih next hp
  rw [locate, hnull, if_neg Bool.false_ne_true, if_neg (Nat.not_lt.mpr hlong), hc,
    hmono _ _ hfold]
  rfl

theorem write_spec {t u : FileTree} {p : Path} {d : Document} (h : t.write p d = .ok u) :
    Holds t u p d := by
  rw [write] at h
  cases hl : t.locate p with
  | error e => rw [hl] at h; cases h
  | ok place =>
    rw [hl] at h
    change (if _ then _ else _) = _ at h
    split at h
    · cases h
    · rename_i hdir
      obtain rfl := Except.ok.inj h
      refine ⟨rfl, fun _ h => h, by rw [locate_eq hl], fun _ h => Or.inl h, place, ?_,
        eq_false_of_ne_true hdir⟩
      exact locate_mono (t := t) (u := { t with documents := t.documents.set (placeText place) d })
        rfl (fun _ h => h) hl

theorem save_spec {t : FileTree} {p : Path} {d : Document}
    (h : (t.save p d).result = .ok ()) : Holds t (t.save p d).files p d := by
  rw [save] at h ⊢
  have hmade := makeDirectories_extends t p.parent
  generalize t.makeDirectories p.parent = made at h hmade ⊢
  obtain ⟨u, result⟩ := made
  rw [Stored.andThen] at h ⊢
  cases result with
  | error e => cases h
  | ok _ =>
    dsimp only at h hmade ⊢
    cases hw : u.write p d with
    | error e => rw [hw] at h; cases h
    | ok v =>
      have hv := write_spec hw
      have hplace : u.place p = t.place p := by
        rw [place, place, resolve, resolve, hmade.current]
      refine ⟨hv.current.trans hmade.current, fun e he => hv.kept e (hmade.kept e he), ?_, ?_,
        hv.located⟩
      · rw [← hplace, ← hmade.documents]
        exact hv.documents
      · intro e he
        rcases hv.fresh e he with he | he
        · exact hmade.fresh e he
        · exact Or.inr (hmade.documents ▸ he)

namespace Holds

variable {t u : FileTree} {p q : Path} {d : Document}

theorem place (h : Holds t u p d) (q : Path) : u.place q = t.place q := by
  rw [FileTree.place, FileTree.place, resolve, resolve, h.current]

theorem has (h : Holds t u p d) : u.has p = .ok true := by
  obtain ⟨place, hl, -⟩ := h.located
  have hd : u.document? place = some d := by
    rw [document?, locate_eq hl, h.place, h.documents, Entries.get?_set, if_pos rfl]
  rw [FileTree.has, hl]
  simp [hd]

/-- The text that was stored is read back, up to its line ends. -/
theorem read {text : String} (h : Holds t u p (.text text)) :
    u.read p = .ok (String.ofList (withLineFeeds text.toList)) := by
  obtain ⟨place, hl, hdir⟩ := h.located
  have hd : u.document? place = some (.text text) := by
    rw [document?, locate_eq hl, h.place, h.documents, Entries.get?_set, if_pos rfl]
  rw [FileTree.read, hl]
  change (if u.isDirectoryAt place = true then _ else _) = _
  rw [hdir, if_neg Bool.false_ne_true, hd]

end Holds

theorem read_ok {t : FileTree} {p : Path} {text : String} (h : t.read p = .ok text) :
    ∃ place content, t.locate p = .ok place ∧ t.isDirectoryAt place = false ∧
      t.document? place = some (.text content) ∧
      text = String.ofList (withLineFeeds content.toList) := by
  rw [FileTree.read] at h
  cases hl : t.locate p with
  | error e => rw [hl] at h; cases h
  | ok place =>
    rw [hl] at h
    change (if _ then _ else _) = _ at h
    split at h
    · cases h
    · rename_i hdir
      split at h
      · rename_i content hd
        exact ⟨place, content, rfl, eq_false_of_ne_true hdir, hd,
          (Except.ok.inj h).symm⟩
      · cases h
      · cases h

theorem has_of_read {t : FileTree} {p : Path} {text : String} (h : t.read p = .ok text) :
    t.has p = .ok true := by
  obtain ⟨place, content, hl, -, hd, -⟩ := read_ok h
  rw [has, hl]
  simp [hd]

/-- No directory is made where there is a document. -/
theorem not_directory_of_fresh {t u : FileTree}
    (hfresh : ∀ e ∈ u.directories, e ∈ t.directories ∨ t.documents.get? e = none)
    {place : List String} (hdir : t.isDirectoryAt place = false) {e : Document}
    (he : t.document? place = some e) : u.isDirectoryAt place = false := by
  rw [isDirectoryAt, Bool.or_eq_false_iff, Bool.eq_false_iff (b := List.contains _ _), ne_eq,
    List.contains_iff_mem] at hdir ⊢
  refine ⟨hdir.1, fun hmem => ?_⟩
  rcases hfresh _ hmem with hold | hnone
  · exact hdir.2 hold
  · rw [document?] at he
    rw [hnone] at he
    cases he

theorem Holds.not_directory {t u : FileTree} {p : Path} {d e : Document} (h : Holds t u p d)
    {place : List String} (hdir : t.isDirectoryAt place = false)
    (he : t.document? place = some e) : u.isDirectoryAt place = false :=
  not_directory_of_fresh h.fresh hdir he

theorem Holds.document_other {t u : FileTree} {p q : Path} {d : Document} (h : Holds t u p d)
    (hne : t.place q ≠ t.place p) {place : List String} (hl : t.locate q = .ok place) :
    u.document? place = t.document? place := by
  rw [document?, h.documents, Entries.get?_set, if_neg, ← document?]
  rw [locate_eq hl]
  exact hne

theorem Holds.read_other {t u : FileTree} {p q : Path} {d : Document} (h : Holds t u p d)
    (hne : t.place q ≠ t.place p) {text : String} (hq : t.read q = .ok text) :
    u.read q = .ok text := by
  obtain ⟨place, content, hl, hdir, hd, rfl⟩ := read_ok hq
  have hl' : u.locate q = .ok place := locate_mono h.current h.kept hl
  rw [FileTree.read, hl']
  change (if u.isDirectoryAt place = true then _ else _) = _
  rw [h.not_directory hdir hd, if_neg Bool.false_ne_true, h.document_other hne hl, hd]

/-! ## Storing a document again -/

theorem isDirectory_iff {t : FileTree} {p : Path} :
    t.isDirectory p = true ↔ ∃ place, t.locate p = .ok place ∧ t.isDirectoryAt place = true := by
  rw [isDirectory]
  cases t.locate p <;> simp

theorem isDirectoryAt_mono {t u : FileTree} (h : ∀ d ∈ t.directories, d ∈ u.directories)
    {place : List String} (hd : t.isDirectoryAt place = true) : u.isDirectoryAt place = true := by
  rw [isDirectoryAt, Bool.or_eq_true, List.contains_iff_mem] at hd ⊢
  exact hd.imp_right (h _)

theorem isDirectory_mono {t u : FileTree} (hc : u.current = t.current)
    (h : ∀ d ∈ t.directories, d ∈ u.directories) {p : Path} (hd : t.isDirectory p = true) :
    u.isDirectory p = true := by
  obtain ⟨place, hl, hplace⟩ := isDirectory_iff.mp hd
  exact isDirectory_iff.mpr ⟨place, locate_mono hc h hl, isDirectoryAt_mono h hplace⟩

theorem isDirectory_of_makeDirectory {t u : FileTree} {p : Path}
    (h : t.makeDirectory p = .ok u) : u.isDirectory p = true := by
  have hext := makeDirectory_extends h
  rw [makeDirectory] at h
  cases hl : t.locate p with
  | error e => rw [hl] at h; cases h
  | ok place =>
    rw [hl] at h
    change (if _ then _ else _) = _ at h
    split at h
    · cases h
    · obtain rfl := Except.ok.inj h
      refine isDirectory_iff.mpr ⟨place, locate_mono hext.current hext.kept hl, ?_⟩
      simp [isDirectoryAt]

theorem isDirectory_of_ensureDirectory {t : FileTree} {p : Path}
    (h : (t.ensureDirectory p).result = .ok ()) :
    (t.ensureDirectory p).files.isDirectory p = true := by
  rw [ensureDirectory] at h ⊢
  split at h
  · rename_i made hmade
    exact isDirectory_of_makeDirectory hmade
  · split at h
    · rename_i hdir
      rw [if_pos hdir]
      exact hdir
    · cases h

theorem isDirectory_of_makeDirectories {t : FileTree} {p : Path}
    (h : (t.makeDirectories p).result = .ok ()) :
    (t.makeDirectories p).files.isDirectory p = true := by
  rw [makeDirectories] at h ⊢
  split at h
  · by_cases hparts : p.parts = []
    · rw [dif_pos hparts] at h ⊢
      exact isDirectory_of_ensureDirectory h
    · rw [dif_neg hparts, Stored.andThen] at h ⊢
      split at h
      · exact isDirectory_of_ensureDirectory h
      · rename_i e he
        rw [he] at h
        cases h
  · exact isDirectory_of_ensureDirectory h

theorem makeDirectories_of_isDirectory {t : FileTree} {p : Path} (h : t.isDirectory p = true) :
    t.makeDirectories p = .done t := by
  obtain ⟨place, hl, hplace⟩ := isDirectory_iff.mp h
  have hmake : t.makeDirectory p = .error ⟨.occupied, p⟩ := by
    rw [makeDirectory, hl]
    change (if _ then _ else _) = _
    rw [hplace]
    rfl
  rw [makeDirectories, hmake]
  simp only [ensureDirectory, hmake, h, if_true]

theorem isDirectory_of_save {t : FileTree} {p : Path} {d : Document}
    (h : (t.save p d).result = .ok ()) : (t.save p d).files.isDirectory p.parent = true := by
  rw [save, Stored.andThen] at h ⊢
  split at h
  · rename_i hmade
    cases hw : (t.makeDirectories p.parent).files.write p d with
    | error e => rw [hw] at h; cases h
    | ok u =>
      have hu := write_spec hw
      exact isDirectory_mono hu.current hu.kept (isDirectory_of_makeDirectories hmade)
  · rename_i e he
    rw [he] at h
    cases h

structure Carries (t : FileTree) (p : Path) (d : Document) : Prop where
  parent : t.isDirectory p.parent = true
  located : ∃ place, t.locate p = .ok place ∧ t.isDirectoryAt place = false ∧
    t.document? place = some d

theorem carries_of_save {t : FileTree} {p : Path} {d : Document}
    (h : (t.save p d).result = .ok ()) : Carries (t.save p d).files p d := by
  have hholds := save_spec h
  obtain ⟨place, hl, hplace⟩ := hholds.located
  refine ⟨isDirectory_of_save h, place, hl, hplace, ?_⟩
  rw [document?, locate_eq hl, hholds.place, hholds.documents, Entries.get?_set, if_pos rfl]

namespace Carries

variable {t u : FileTree} {p q : Path} {d e : Document}

theorem frame (h : Carries t p d) (hu : Holds t u q e) (hne : t.place p ≠ t.place q) :
    Carries u p d := by
  obtain ⟨place, hl, hdir, hd⟩ := h.located
  refine ⟨isDirectory_mono hu.current hu.kept h.parent, place, ?_, ?_, ?_⟩
  · exact locate_mono hu.current hu.kept hl
  · exact hu.not_directory hdir hd
  · rw [hu.document_other hne hl, hd]

theorem replace (h : Carries t p d) (e : Document) :
    t.save p e = .done { t with documents := t.documents.set (t.place p) e } := by
  obtain ⟨place, hl, hdir, -⟩ := h.located
  have hwrite : t.write p e = .ok { t with documents := t.documents.set (t.place p) e } := by
    rw [write, hl]
    change (if _ then _ else _) = _
    rw [hdir, if_neg Bool.false_ne_true, locate_eq hl]
  rw [save, makeDirectories_of_isDirectory h.parent, Stored.andThen_done, hwrite]
  rfl

theorem save (h : Carries t p d) : t.save p d = .done t := by
  obtain ⟨place, hl, -, hd⟩ := h.located
  have hget : t.documents.get? (t.place p) = some d := by
    rw [← locate_eq hl]
    exact hd
  rw [h.replace, Entries.set_of_get? hget]

end Carries

end Reconciliation.FileTree
