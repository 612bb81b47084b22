import Reconciliation.Proofs.Settings.Frame

/-! # Settings whose text holds a scalar that stands for nothing -/
namespace Reconciliation

def SettingsError.Stated (e : SettingsError) : Prop := ∀ f, e ≠ .invalidScalar f

namespace Settings

open SettingsError (Stated)
open Traced (Errors)

theorem errors_required (name : String) (v : Value) : Errors Stated (required name v) := by
  unfold required
  split
  · exact .ok _
  · exact .error nofun

theorem errors_optional (name : String) (v : Value) : Errors Stated (optional name v) := by
  unfold optional
  split
  · exact .ok _
  · exact .ok _
  · exact .error nofun

theorem errors_textField (field : String) (v : Value) : Errors Stated (textField field v) := by
  unfold textField
  split
  · split
    · exact .error nofun
    · exact .ok _
  · exact .error nofun

theorem errors_flagField (field : String) (v : Value) : Errors Stated (flagField field v) := by
  unfold flagField
  split
  · exact .ok _
  · exact .error nofun

theorem errors_positiveField (field : String) (v : Value) :
    Errors Stated (positiveField field v) := by
  unfold positiveField
  split
  · split
    · exact .ok _
    · exact .error nofun
  · exact .error nofun

theorem errors_levelField (field : String) (v : Value) : Errors Stated (levelField field v) := by
  apply (errors_textField field v).bind
  intro written
  split
  · exact .ok _
  · exact .error nofun

theorem errors_file {α : Type} (x : Except FileError α) :
    Errors Stated (x.mapError SettingsError.file) := .mapError (fun _ _ => nofun) x

theorem errors_textOr (missing : SettingsError) (h : missing.Stated) (files : FileTree)
    (path : Path) : Errors Stated (textOr missing files path) := by
  unfold textOr
  split
  · exact .error nofun
  · exact .error h
  · exact errors_file _

theorem errors_schemaFile (files : FileTree) (path : Path) :
    Errors Stated (schemaFile files path) := by
  apply (errors_textOr (.missingSchema path) nofun files path).bind
  intro text
  split
  · exact .error nofun
  · exact .ok _

theorem errors_schemaField (files : FileTree) (directory : Path) (v : Value) :
    Errors Stated (schemaField files directory v) := by
  apply (errors_required "schema" v).bind
  intro es
  dsimp only
  split
  · exact .error nofun
  split
  · split
    · exact .ok _
    · exact .error nofun
  split
  · split
    · apply (errors_file _).bind
      intro path
      exact errors_schemaFile files path
    · exact .error nofun
  · exact .error nofun

theorem errors_ofEntries (files : FileTree) (path : Path) (es : Entries Value) :
    Errors Stated (ofEntries files path es) := by
  apply (errors_schemaField files _ _).bind
  intro schema
  apply (errors_optional _ _).bind
  intro run
  apply (errors_textField _ _).bind
  intro name
  apply (errors_flagField _ _).bind
  intro ignoreListOrder
  apply (errors_flagField _ _).bind
  intro requireIdentifier
  apply (errors_positiveField _ _).bind
  intro timeout
  apply (errors_optional _ _).bind
  intro logging
  exact (errors_levelField _ _).bind fun _ => .ok _

theorem documentEntries_invalidScalar_iff {text : String} {f : Yaml.Fault} :
    documentEntries text = .error (.invalidScalar f) ↔ Yaml.read? text = .error (.fault f) := by
  rw [documentEntries]
  cases Yaml.read? text with
  | ok v => cases v <;> exact ⟨nofun, nofun⟩
  | error e =>
    cases e with
    | malformed => exact ⟨nofun, nofun⟩
    | fault g => simp

/-- Settings cannot be loaded because of a scalar exactly if their text has no value for it. -/
theorem load_invalidScalar_iff {files : FileTree} {path : Path} {f : Yaml.Fault} :
    load files path = .error (.invalidScalar f) ↔
      ∃ text, files.read path = .ok text ∧ Yaml.read? text = .error (.fault f) := by
  rw [load]
  constructor
  · intro h
    rcases Traced.error_bind.mp h with h | ⟨text, htext, h⟩
    · exact absurd rfl (errors_textOr (.missingFile path) nofun files path _ h f)
    rcases Traced.error_bind.mp h with h | ⟨es, -, h⟩
    · exact ⟨text, textOr_ok.mp htext, documentEntries_invalidScalar_iff.mp h⟩
    · exact absurd rfl (errors_ofEntries files path es _ h f)
  · rintro ⟨text, htext, hread⟩
    apply Traced.error_bind.mpr
    refine .inr ⟨text, textOr_ok.mpr htext, ?_⟩
    apply Traced.error_bind.mpr
    exact .inl (documentEntries_invalidScalar_iff.mpr hread)

end Settings

end Reconciliation
