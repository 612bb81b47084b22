import Reconciliation.Command.Basic
import Reconciliation.Run.Execution
import Reconciliation.Text.Terminal

/-! # What commands do -/
namespace Reconciliation

inductive Ending
  | exit (code : Nat)
  /-- Settings that cannot be loaded for their log level. -/
  | settingsFailure (e : SettingsError)
  /-- A path that cannot be used. -/
  | pathFailure (e : FileError)
  /-- An error that no command accounts for. -/
  | runFailure (e : RunError)

structure CommandResult where
  ending : Ending
  output : String := ""
  messages : String := ""
  files : FileTree
  report : Option Path := none

namespace CommandResult

def line (s : String) : String := Text.withoutSequences s ++ "\n"

def success (files : FileTree) (output : String) : CommandResult :=
  { ending := .exit 0, output := line output, files := files }

def failure (files : FileTree) (message : String) : CommandResult :=
  { ending := .exit 1, messages := line message, files := files }

end CommandResult

namespace Command

def logText (level : Log.Level) (log : List Log.Event) : String :=
  String.join ((log.filter fun e => level.number ≤ e.level.number).map (·.line ++ "\n"))

def runTemplate (files : FileTree) (output : String) : CommandResult :=
  let path := Path.ofString output
  match Settings.writeTemplate files path with
  | .error e => .failure files e.message
  | .ok files => .success files (files.resolve path).text

def runHash (files : FileTree) (input : String) : CommandResult :=
  match files.read (Path.ofString input) with
  | .error e => .failure files e.message
  | .ok text => match Json.read text with
    | .error f => .failure files f.message
    | .ok v => .success files (toString v.hash.toNat)

def runAt (files : FileTree) (start : Timestamp) (level : Log.Level) (request : RunRequest)
    (pace : Pace := .inTime) : CommandResult :=
  let result := request.run start files pace
  let log := logText level result.outcome.log
  match result.outcome.result with
  | .ok outcome =>
    { ending := .exit 0
      output := CommandResult.line outcome.output.text
      messages := log
      files := result.files
      report := outcome.report }
  | .error e =>
    if e.isUnexpected then { ending := .runFailure e, messages := log, files := result.files }
    else
      { ending := .exit 1
        messages := log ++ CommandResult.line e.message
        files := result.files }

def isExplained : SettingsError → Bool
  | .file _ | .invalidScalar _ => false
  | _ => true

/-- The log level is the one given, or else that of the settings. -/
def runReconcile (files : FileTree) (start : Timestamp) (level : Option Log.Level)
    (request : RunRequest) (pace : Pace := .inTime) : CommandResult :=
  match level with
  | some level => runAt files start level request pace
  | none => match Settings.load files (Path.ofString request.settings) with
    | .ok settings => runAt files start settings.level request pace
    | .error e =>
      if isExplained e then .failure files e.message
      else { ending := .settingsFailure e, files := files }

def run (files : FileTree) (start : Timestamp) (i : Invocation) : CommandResult :=
  match i.command with
  | .writeTemplate output => runTemplate files output
  | .hash input => runHash files input
  | .reconcile request => runReconcile files start i.level request

def versionText : String := "state-reconciler, version 0.1.0"

def helpText : String :=
  String.join (["Usage: state-reconciler [--log-level LEVEL] COMMAND [OPTIONS]",
    "",
    "  generate-config [--output FILE]    write a configuration template",
    "  reconcile --config FILE --remote FILE --state FILE",
    "            [--output FILE] [--report FILE] [--data-source]",
    "                                     merge a payload into the stored state",
    "  hash --input FILE                  print the structural hash of a document"].map
      CommandResult.line)

def execute (files : FileTree) (start : Timestamp) (args : List String) : CommandResult :=
  match intent args with
  | .ok (.invoke i) => run files start i
  | .ok .version => .success files versionText
  | .ok .help => { ending := .exit 0, output := helpText, files := files }
  | .error (.path e) => { ending := .pathFailure e, files := files }
  | .error e =>
    { ending := .exit 2, messages := CommandResult.line ("Error: " ++ e.message), files := files }

end Command

end Reconciliation
