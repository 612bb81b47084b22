import Reconciliation.Report.Writer
import Reconciliation.Run.Deadline
import Reconciliation.Run.Payload
import Reconciliation.Settings.Basic
import Reconciliation.State.File
import Reconciliation.State.Identifier

/-! # Runs: what they are asked and what they answer -/
namespace Reconciliation

structure RunRequest where
  settings : String
  remote : String
  state : String
  /-- Where the new state goes; an empty text or nothing means back to the state file. -/
  output : Option String := none
  /-- Where a report goes; an empty text or nothing means that there is none. -/
  report : Option String := none
  /-- Whether lists are stored in the order in which they are received. -/
  dataSource : Bool := false

structure RunOutcome where
  output : Path
  identifier : Option String
  report : Option Path
  changed : List String

inductive RunError
  | settings (e : SettingsError)
  | schema (e : SchemaError)
  | payload (e : PayloadError)
  | state (e : StateFileError)
  | deadline (e : DeadlineError)
  | read (e : ReadError)
  | output (e : FileError)
  | report (e : ReportError)

namespace RunError

def message : RunError → String
  | settings e => e.message
  | schema e => e.message
  | payload e => e.message
  | state e => e.message
  | deadline e => e.message
  | read e => e.message
  | output e => e.message
  | report e => e.message

/-- Errors that a run does not account for: a number that cannot be rounded, a text that no cell
holds, a path that cannot be written, a deadline that no clock can tell, and a scalar that is neither
misspelled nor out of range. -/
def isUnexpected : RunError → Bool
  | settings (.invalidScalar f) => f.isUnexpected
  | schema (.invalidScalar f) => f.isUnexpected
  | deadline .endless => true
  | read (.merge .integerTooLarge) => true
  | output e => e.cause = .nullCharacter
  | report (.cell _) => true
  | report .numberTooLarge => true
  | report (.file e) => e.cause = .nullCharacter
  | _ => false

end RunError

namespace RunRequest

def nonempty (s : Option String) : Option String := s.filter (· != "")

def outputPath (r : RunRequest) : Path := Path.ofString ((nonempty r.output).getD r.state)

def reportPath? (r : RunRequest) : Option Path := (nonempty r.report).map Path.ofString

def label (r : RunRequest) : String := if r.dataSource then "data source read" else "read"

end RunRequest

end Reconciliation
