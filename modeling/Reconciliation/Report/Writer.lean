import Reconciliation.Files.Tree
import Reconciliation.Report.Basic

/-! # Reports in files -/
namespace Reconciliation

inductive ReportError
  | cell (e : Sheet.CellError)
  | file (e : FileError)
  | numberTooLarge
deriving DecidableEq

def ReportError.message : ReportError → String
  | cell e => e.message
  | file e => e.message
  | numberTooLarge => "int too large to convert to float"

namespace Report

def isStorable (sheets : Workbook) : Bool :=
  sheets.all fun s => s.rows.all fun row => row.all Sheet.isStorable

/-- Writes a report, making the directories on the way to it. Numbers are stored last. -/
def save (files : FileTree) (path : Path) (changes : List PropertyChange) (info : RunInfo)
    (source : SchemaSource) : Stored ReportError :=
  match workbook changes info source with
  | .error e => .failed files (.cell e)
  | .ok sheets => ((files.save path (.workbook sheets)).mapError .file).andThen fun files =>
    if isStorable sheets then .done files else .failed files .numberTooLarge

end Report

end Reconciliation
