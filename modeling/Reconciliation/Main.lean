import Reconciliation.Command.Execution
import Std.Time.DateTime.Timestamp

/-! # The program

A command works on a tree of the files that its arguments name. The program reads these files,
and writes the documents that differ once the command is done.
-/
namespace Reconciliation.Program

def places (current p : Path) : List (List String) :=
  let step (s : List (List String) × List String) (part : String) :=
    let next := Path.follow s.2 part
    (next.reverse :: s.1, next)
  ((current.join p).parts.foldl step ([[]], [])).1.reverse

def look (t : FileTree) (place : List String) : IO FileTree := do
  let key := FileTree.placeText place
  try
    let content ← IO.FS.readFile key
    return { t with documents := t.documents.set key (.text content) }
  catch _ =>
    try
      let _ ← IO.FS.realPath key
      return { t with directories := key :: t.directories }
    catch _ => return t

def snapshot (current : Path) (paths : List Path) : IO FileTree :=
  (paths.flatMap (places current)).eraseDups.foldlM look ⟨current, [], []⟩

def named : Command → List String
  | .writeTemplate output => [output]
  | .hash input => [input]
  | .reconcile r => [r.settings, r.remote, r.state] ++ r.output.toList ++ r.report.toList

/-- The file of the schema, which is named by the settings. -/
def schemaFile (t : FileTree) : Command → List Path
  | .reconcile r => match Settings.load t (Path.ofString r.settings) with
    | .error (.missingSchema path) => [path]
    | _ => []
  | _ => []

def filesFor (current : Path) (args : List String) : IO FileTree := do
  match Command.intent args with
  | .ok (.invoke i) =>
    let paths := (named i.command).map Path.ofString
    let t ← snapshot current paths
    match schemaFile t i.command with
    | [] => return t
    | more => snapshot current (paths ++ more)
  | _ => return ⟨current, [], []⟩

def unchanged (before : FileTree) (key : String) (d : Document) : Bool :=
  match before.documents.get? key, d with
  | some (.text old), .text new => old == new
  | _, _ => false

def content : Document → String
  | .text s => s
  | .workbook sheets => ResourceState.style.print (Report.sheetValues sheets)

def store (before after : FileTree) : IO Unit := do
  for d in after.directories do
    if !before.directories.contains d then IO.FS.createDirAll d
  for (key, d) in after.documents do
    if !unchanged before key d then IO.FS.writeFile key (content d)

def now : IO Timestamp := do
  let t ← Std.Time.Timestamp.now
  return Timestamp.ofMicroseconds (t.toNanosecondsSinceUnixEpoch.toInt / 1000).toNat

def run (args : List String) : IO UInt32 := do
  let current := Path.ofString (toString (← IO.currentDir))
  let files ← filesFor current args
  let result := Command.execute files (← now) args
  store files result.files
  IO.print result.output
  IO.eprint result.messages
  match result.ending with
  | .exit code => return UInt32.ofNat code
  | .settingsFailure e => IO.eprintln e.message; return 1
  | .pathFailure e => IO.eprintln e.message; return 1
  | .runFailure e => IO.eprintln e.message; return 1

end Reconciliation.Program

def main (args : List String) : IO UInt32 := Reconciliation.Program.run args
