import Reconciliation.Proofs.Files.Frame
import Reconciliation.Proofs.Traced
import Reconciliation.Settings.Reader

/-! # Settings do not depend on other files

Settings are read from their own file and from the file of the schema, if there is one. Storing a
document anywhere else leaves them as they are.
-/
namespace Reconciliation.Settings

open Traced (except_bind except_mapError)

theorem textOr_ok {missing : SettingsError} {t : FileTree} {p : Path} {text : String} :
    textOr missing t p = .ok text ↔ t.read p = .ok text := by
  unfold textOr
  constructor
  · intro h
    split at h
    · cases h
    · cases h
    · exact except_mapError.mp h
  · intro h
    rw [FileTree.has_of_read h]
    exact except_mapError.mpr h

variable {t u : FileTree} {stored : Path} {d : Document}

theorem schemaPath_frame (h : FileTree.Holds t u stored d) (directory written : Path) :
    schemaPath u directory written = schemaPath t directory written := by
  simp only [schemaPath, FileTree.resolved, FileTree.resolve, h.current]

theorem schemaFile_frame (h : FileTree.Holds t u stored d) {path : Path} {source : SchemaSource}
    (hs : schemaFile t path = .ok source) (hp : ∀ q ∈ source.path, t.place q ≠ t.place stored) :
    schemaFile u path = .ok source := by
  obtain ⟨text, htext, hs⟩ := except_bind.mp hs
  refine except_bind.mpr ⟨text, ?_, hs⟩
  have hpath : source.path = some path := by
    split at hs
    · cases hs
    · rw [← Except.ok.inj hs]
  exact textOr_ok.mpr (h.read_other (hp path hpath) (textOr_ok.mp htext))

theorem schemaField_frame (h : FileTree.Holds t u stored d) {directory : Path} {v : Value}
    {source : SchemaSource} (hs : schemaField t directory v = .ok source)
    (hp : ∀ q ∈ source.path, t.place q ≠ t.place stored) :
    schemaField u directory v = .ok source := by
  obtain ⟨es, hes, hs⟩ := except_bind.mp hs
  refine except_bind.mpr ⟨es, hes, ?_⟩
  dsimp only at hs ⊢
  split at hs
  · cases hs
  · rename_i hboth
    rw [if_neg hboth]
    split at hs
    · rename_i hinline
      rw [if_pos hinline]
      exact hs
    · rename_i hinline
      rw [if_neg hinline]
      split at hs
      · rename_i hpath
        rw [if_pos hpath]
        split at hs
        · obtain ⟨path, hpath, hs⟩ := except_bind.mp hs
          refine except_bind.mpr ⟨path, ?_, schemaFile_frame h hs hp⟩
          rw [schemaPath_frame h]
          exact hpath
        · cases hs
      · cases hs

/-- The settings are loaded as before, if neither their file nor that of the schema is written. -/
theorem load_frame (h : FileTree.Holds t u stored d) {path : Path} {settings : Settings}
    (hl : load t path = .ok settings) (hp : t.place path ≠ t.place stored)
    (hs : ∀ q ∈ settings.schema.path, t.place q ≠ t.place stored) :
    load u path = .ok settings := by
  obtain ⟨text, htext, hl⟩ := except_bind.mp hl
  obtain ⟨es, hes, hl⟩ := except_bind.mp hl
  refine except_bind.mpr ⟨text, textOr_ok.mpr (h.read_other hp (textOr_ok.mp htext)), ?_⟩
  refine except_bind.mpr ⟨es, hes, ?_⟩
  obtain ⟨source, hsource, hl⟩ := except_bind.mp hl
  refine except_bind.mpr ⟨source, schemaField_frame h hsource ?_, hl⟩
  have heq : settings.schema = source := by
    obtain ⟨_, -, hl⟩ := except_bind.mp hl
    obtain ⟨_, -, hl⟩ := except_bind.mp hl
    obtain ⟨_, -, hl⟩ := except_bind.mp hl
    obtain ⟨_, -, hl⟩ := except_bind.mp hl
    obtain ⟨_, -, hl⟩ := except_bind.mp hl
    obtain ⟨_, -, hl⟩ := except_bind.mp hl
    obtain ⟨_, -, hl⟩ := except_bind.mp hl
    rw [← Except.ok.inj hl]
  rw [← heq]
  exact hs

end Reconciliation.Settings
