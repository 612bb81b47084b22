import Reconciliation.Proofs.Files.Alteration
import Reconciliation.Proofs.Run.Rerun

/-! # Runs that fail

A run writes twice: first the new state, then the report. Whatever fails before the new state is
stored leaves every file as it was. A report that cannot be written comes too late for that.
-/
namespace Reconciliation

open FileTree (Alters Extends)

/-! ## What is written to last -/

theorem Report.save_alters {may : String → Prop} (t : FileTree) {path : Path}
    (hp : may (t.place path)) (changes : List PropertyChange) (info : RunInfo)
    (source : SchemaSource) : Alters may t (Report.save t path changes info source).files := by
  rw [Report.save]
  split
  · exact Alters.refl t
  · rename_i sheets _
    have hsave : Alters may t (t.save path (.workbook sheets)).files :=
      FileTree.save_alters t _ hp
    rw [Stored.andThen]
    split
    · -- The numbers are found to be too large once the workbook is there.
      split
      · exact hsave
      · exact hsave
    · exact hsave

/-- A report touches its own file at most, whether or not it can be written. -/
theorem RunInput.report_alters {may : String → Prop} (input : RunInput) (start : Timestamp)
    {t : FileTree} {r : RunRequest} (hp : ∀ p ∈ r.reportPath?, may (t.place p))
    (state : ResourceState) : Alters may t (input.report start t r state).files := by
  rw [RunInput.report]
  split
  · exact Alters.refl t
  · rename_i path hpath
    split
    · exact Alters.refl t
    · exact Report.save_alters t (hp path hpath) _ _ _

def RunError.isWriting : RunError → Bool
  | .output _ | .report _ => true
  | _ => false

namespace RunRequest

variable {r : RunRequest} {start : Timestamp} {t : FileTree} {pace : Pace} {e : RunError}

theorem load_error (h : RunInput.load t r = .error e) : e.isWriting = false := by
  rcases Traced.error_mapError_bind.mp h with ⟨_, -, rfl⟩ | ⟨_, -, h⟩
  · rfl
  rcases Traced.error_mapError_bind.mp h with ⟨_, -, rfl⟩ | ⟨_, -, h⟩
  · rfl
  rcases Traced.error_mapError_bind.mp h with ⟨_, -, rfl⟩ | ⟨_, -, h⟩
  · rfl
  rcases Traced.error_mapError_bind.mp h with ⟨_, -, rfl⟩ | ⟨_, -, h⟩
  · rfl
  cases h

theorem read_error {input : RunInput} (h : (input.read r pace).result = .error e) :
    e.isWriting = false := by
  obtain ⟨e', -, rfl⟩ := Traced.error_mapError.mp h
  cases e' with
  | inl _ => rfl
  | inr _ => rfl

inductive Ends (r : RunRequest) (start : Timestamp) (t : FileTree) (pace : Pace) :
    Except RunError RunOutcome → FileTree → Prop
  | loading {e : RunError} (h : RunInput.load t r = .error e) : Ends r start t pace (.error e) t
  | reading {input : RunInput} {e : RunError} (hl : RunInput.load t r = .ok input)
      (h : (input.read r pace).result = .error e) : Ends r start t pace (.error e) t
  | saving {input : RunInput} {state : ResourceState} {e : FileError}
      (hl : RunInput.load t r = .ok input) (hm : (input.read r pace).result = .ok state)
      (h : (state.save t r.outputPath).result = .error e) :
      Ends r start t pace (.error (.output e)) (state.save t r.outputPath).files
  | reporting {input : RunInput} {state : ResourceState} {e : ReportError}
      (hl : RunInput.load t r = .ok input) (hm : (input.read r pace).result = .ok state)
      (hs : (state.save t r.outputPath).result = .ok ())
      (h : (input.report start (state.save t r.outputPath).files r state).result = .error e) :
      Ends r start t pace (.error (.report e))
        (input.report start (state.save t r.outputPath).files r state).files
  | done {input : RunInput} {state : ResourceState}
      (hl : RunInput.load t r = .ok input) (hm : (input.read r pace).result = .ok state)
      (hs : (state.save t r.outputPath).result = .ok ())
      (h : (input.report start (state.save t r.outputPath).files r state).result = .ok ()) :
      Ends r start t pace
        (.ok ⟨(state.save t r.outputPath).files.resolve r.outputPath, state.identifier,
          r.reportPath?.map (state.save t r.outputPath).files.resolve, changedNames input state⟩)
        (input.report start (state.save t r.outputPath).files r state).files

theorem ends_of_run (r : RunRequest) (start : Timestamp) (t : FileTree) (pace : Pace) :
    r.Ends start t pace (r.run start t pace).outcome.result (r.run start t pace).files := by
  cases hl : RunInput.load t r with
  | error e =>
    simp only [run, hl]
    exact .loading hl
  | ok input =>
    cases hm : (input.read r pace).result with
    | error e =>
      simp only [run, hl, hm]
      exact .reading hl hm
    | ok state =>
      cases hs : (state.save t r.outputPath).result with
      | error e =>
        simp only [run, hl, hm, hs]
        exact .saving hl hm hs
      | ok _ =>
        simp only [run, hl, hm, hs, finish]
        cases hr : (input.report start (state.save t r.outputPath).files r state).result with
        | error e => exact .reporting hl hm hs hr
        | ok _ => exact .done hl hm hs hr

theorem run_of_ends {result : Except RunError RunOutcome} {u : FileTree}
    (h : r.Ends start t pace result u) :
    (r.run start t pace).outcome.result = result ∧ (r.run start t pace).files = u := by
  cases h with
  | loading hl => simp [run, hl]
  | reading hl hm => simp [run, hl, hm]
  | saving hl hm hs => simp [run, hl, hm, hs]
  | reporting hl hm hs hr => simp [run, hl, hm, hs, finish, hr, Except.mapError, Except.map]
  | done hl hm hs hr =>
    simp [run, hl, hm, hs, finish, hr, Except.mapError, Except.map, changedNames]

def MayWrite (r : RunRequest) (t : FileTree) (k : String) : Prop :=
  k = t.place r.outputPath ∨ ∃ p ∈ r.reportPath?, k = t.place p

theorem exists_reportPath {input : RunInput} {state : ResourceState} {f : ReportError}
    (h : (input.report start t r state).result = .error f) : ∃ path, r.reportPath? = some path := by
  cases hp : r.reportPath? with
  | none =>
    rw [RunInput.report, hp] at h
    cases h
  | some path => exact ⟨path, rfl⟩

namespace Ends

variable {u : FileTree}

/-- However a run ends, it leaves alone what is neither its output nor its report. -/
theorem alters {result : Except RunError RunOutcome} (h : r.Ends start t pace result u) :
    Alters (r.MayWrite t) t u := by
  have hwrites (input : RunInput) (state : ResourceState) : Alters (r.MayWrite t) t
      (input.report start (state.save t r.outputPath).files r state).files := by
    have hsaved : Alters (r.MayWrite t) t (state.save t r.outputPath).files :=
      FileTree.save_alters t _ (Or.inl rfl)
    apply hsaved.trans
    apply RunInput.report_alters
    intro p hp
    rw [hsaved.place]
    exact Or.inr ⟨p, hp, rfl⟩
  cases h with
  | loading _ => exact Alters.refl t
  | reading _ _ => exact Alters.refl t
  | saving _ _ _ => exact FileTree.save_alters t _ (Or.inl rfl)
  | reporting _ _ _ _ => exact hwrites _ _
  | done _ _ _ _ => exact hwrites _ _

theorem stored {f : ReportError} (h : r.Ends start t pace (.error (.report f)) u) :
    ∃ path input state, r.reportPath? = some path ∧ RunInput.load t r = .ok input ∧
      (input.merged r.dataSource).result = .ok state ∧
      (t.place r.outputPath ≠ t.place path →
        u.file? r.outputPath = some (.text state.text)) := by
  cases h with
  | loading hl => cases load_error hl
  | reading _ hm => cases read_error hm
  | reporting hl hm hs h =>
    rename_i input state
    obtain ⟨path, hp⟩ := exists_reportPath h
    have hholds : FileTree.Holds t (state.save t r.outputPath).files r.outputPath
        (.text state.text) := FileTree.save_spec hs
    refine ⟨path, input, state, hp, hl, (ok_read.mp hm).2, ?_⟩
    intro hne
    have hreport : Alters (· = t.place path) (state.save t r.outputPath).files
        (input.report start (state.save t r.outputPath).files r state).files := by
      apply RunInput.report_alters
      intro q hq
      obtain rfl := Option.some.inj (hp.symm.trans hq)
      exact hholds.place _
    obtain ⟨place, hplace, -⟩ := hholds.located
    have hapart : (state.save t r.outputPath).files.place r.outputPath ≠ t.place path := by
      rw [hholds.place]
      exact hne
    rw [hreport.file? hplace hapart]
    exact hholds.file?

end Ends

end RunRequest

/-! ## Parcels that cannot be written -/

end Reconciliation
