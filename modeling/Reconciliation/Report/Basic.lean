import Reconciliation.Checksum.Sha256
import Reconciliation.Json.Printer
import Reconciliation.Report.Timestamp
import Reconciliation.Report.Workbook
import Reconciliation.Schema.Source
import Reconciliation.State.Changes

/-! # Change reports

A report is a workbook of three sheets: the change of every property, facts of the run, and the
declaration of the schema.
-/
namespace Reconciliation.Report

structure RunInfo where
  start : Timestamp
  resourceName : String
  identifier : Option String
  remote : Path
  state : Path
  output : Path
  timeoutSeconds : Int
  dataSource : Bool

def objectStyle : Json.Style := ⟨true, false⟩

/-- Keys as they come, all in one line. -/
def arrayStyle : Json.Style := ⟨false, false⟩

/-- What a report shows of a value: objects and arrays as JSON texts, scalars as they are. -/
def shown : Value → Value
  | .object es => .string (objectStyle.print (.object es))
  | .array xs => .string (arrayStyle.print (.array xs))
  | v => v

def mask : Value := .string "(write-only)"

def changeHeader : List Value := ["Property", "Status", "Previous", "Merged"].map .string

def changeRow (c : PropertyChange) : List Value :=
  let value (v : Value) : Value := if c.status = .writeOnly then mask else shown v
  [.string c.stateName, .string c.status.name, value c.previous, value c.merged]

def changeRows (changes : List PropertyChange) : List (List Value) :=
  changeHeader :: changes.map changeRow

def countRows (changes : List PropertyChange) : List (List Value) :=
  ChangeStatus.all.map fun s =>
    [.string s.smallName, .int (changes.countP fun c => c.status == s)]

def infoRows (info : RunInfo) (changes : List PropertyChange) : List (List Value) :=
  [[.string "run_start", .string info.start.text],
   [.string "resource_name", .string info.resourceName],
   [.string "resource_id", .string (info.identifier.getD "")],
   [.string "remote_path", .string info.remote.text],
   [.string "state_path", .string info.state.text],
   [.string "output_path", .string info.output.text],
   [.string "timeout_seconds", .int info.timeoutSeconds],
   [.string "data_source", .bool info.dataSource],
   [.string "properties", .int changes.length]] ++ countRows changes

def schemaRows (source : SchemaSource) : List (List Value) :=
  [[.string "schema_source", .string (source.path.elim "" Path.text)],
   [.string "schema_hash", .string (Sha256.ofText source.text)],
   [.string "schema_text", .string source.text]]

def workbook (changes : List PropertyChange) (info : RunInfo) (source : SchemaSource) :
    Except Sheet.CellError Workbook := do
  let changeSheet ← Sheet.ofRows "Changes" (changeRows changes)
  let infoSheet ← Sheet.ofRows "RunInfo" (infoRows info changes)
  let schemaSheet ← Sheet.ofRows "Schema" (schemaRows source)
  .ok [changeSheet, infoSheet, schemaSheet]

def sheetValues (sheets : Workbook) : Value :=
  .array (sheets.map fun s =>
    .object [("title", .string s.title), ("rows", .array (s.rows.map .array))])

end Reconciliation.Report
