import Reconciliation.Run.Basic
import Reconciliation.Schema.Reader
import Reconciliation.Settings.Reader
import Reconciliation.State.Session

/-! # Runs

A run loads its files, reconciles the payload with the stored state, stores the result and writes
a report if one is asked for.
-/
namespace Reconciliation

structure RunInput where
  settings : Settings
  schema : Schema
  payload : Entries Value
  prior : ResourceState

namespace RunInput

/-- Loads what a request names. The settings come first, then the schema, the payload and the
state. -/
def load (files : FileTree) (r : RunRequest) : Except RunError RunInput := do
  let settings ← (Settings.load files (Path.ofString r.settings)).mapError .settings
  let schema ← (Schema.read settings.schema.text).mapError .schema
  let payload ← (Payload.load files (Path.ofString r.remote)).mapError .payload
  let prior ← (ResourceState.load files (Path.ofString r.state)).mapError .state
  .ok ⟨settings, schema, payload, prior⟩

def order (input : RunInput) (dataSource : Bool) : ListOrder :=
  if dataSource || !input.settings.ignoreListOrder then .received else .stored

/-- Takes the identifier from the payload. Unless one is required, a payload without an identifier
leaves the one there is. -/
def identified (input : RunInput) (state : ResourceState) : Traced ReadError ResourceState :=
  match input.schema.extractIdentifier input.payload with
  | .ok _ => state.assignIdentifier input.schema input.payload
  | .error e =>
    if e.isMissing && !input.settings.requireIdentifier then do
      Traced.record (.identifierKept state.identifier)
      pure state
    else Traced.throw e

def merged (input : RunInput) (dataSource : Bool) : Traced ReadError ResourceState := do
  let state ← input.prior.update input.schema (input.order dataSource) (.object input.payload)
  input.identified state

def deadline (input : RunInput) (r : RunRequest) : Deadline :=
  ⟨input.settings.resourceName, r.label, .whole input.settings.timeoutSeconds⟩

/-- The merge under its deadline. A merge that is late comes to its end all the same, so its records
are there. -/
def read (input : RunInput) (r : RunRequest) (pace : Pace := .inTime) :
    Traced RunError ResourceState :=
  let start : Log.Event := .runStarted input.settings.resourceName r.remote r.state
  let merged := input.merged r.dataSource
  let result := (input.deadline r).apply (pace.watched merged.result)
  ⟨start :: merged.log, result.mapError fun e => e.elim .deadline .read⟩

def changes (input : RunInput) (state : ResourceState) : List PropertyChange :=
  input.schema.changes input.prior.values state.values

def info (input : RunInput) (start : Timestamp) (files : FileTree) (r : RunRequest)
    (state : ResourceState) : Except FileError Report.RunInfo := do
  let statePath ← files.resolved (Path.ofString r.state)
  .ok
    { start := start
      resourceName := input.settings.resourceName
      identifier := state.identifier
      remote := files.resolve (Path.ofString r.remote)
      state := statePath
      output := files.resolve r.outputPath
      timeoutSeconds := input.settings.timeoutSeconds
      dataSource := r.dataSource }

def report (input : RunInput) (start : Timestamp) (files : FileTree) (r : RunRequest)
    (state : ResourceState) : Stored ReportError :=
  match r.reportPath? with
  | none => .done files
  | some path => match input.info start files r state with
    | .error e => .failed files (.file e)
    | .ok info => Report.save files path (input.changes state) info input.settings.schema

end RunInput

structure RunResult where
  files : FileTree
  outcome : Traced RunError RunOutcome

namespace RunRequest

def finish (r : RunRequest) (start : Timestamp) (input : RunInput) (state : ResourceState)
    (files : FileTree) (log : List Log.Event) : RunResult :=
  let changed := (input.changes state).filter PropertyChange.isChange
  let output := files.resolve r.outputPath
  let log := log ++ [.stateWritten output changed.length]
  let report := r.reportPath?.map files.resolve
  let stored := input.report start files r state
  ⟨stored.files, log, (stored.result.mapError .report).map fun _ =>
    ⟨output, state.identifier, report, changed.map PropertyChange.stateName⟩⟩

/-- Carries out a request, at the pace at which the merge goes. The state is stored before the report
is written. -/
def run (r : RunRequest) (start : Timestamp) (files : FileTree) (pace : Pace := .inTime) :
    RunResult :=
  match RunInput.load files r with
  | .error e => ⟨files, Traced.throw e⟩
  | .ok input =>
    let read := input.read r pace
    match read.result with
    | .error e => ⟨files, read.log, .error e⟩
    | .ok state =>
      let stored := state.save files r.outputPath
      match stored.result with
      | .error e => ⟨stored.files, read.log, .error (.output e)⟩
      | .ok () => r.finish start input state stored.files read.log

end RunRequest

end Reconciliation
