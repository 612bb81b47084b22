import Reconciliation.Command.Options
import Reconciliation.Run.Basic
import Reconciliation.Settings.Template
import Reconciliation.Text.Case

/-! # Commands -/
namespace Reconciliation

inductive Command
  | writeTemplate (output : String)
  | reconcile (request : RunRequest)
  | hash (input : String)

structure Invocation where
  level : Option Log.Level
  command : Command

inductive Intent
  | help
  | version
  | invoke (i : Invocation)

namespace Command

def programOptions : List OptionSpec :=
  [⟨"--log-level", true⟩, ⟨"--version", false⟩] ++ Arguments.commonOptions

def templateOptions : List OptionSpec := ⟨"--output", true⟩ :: Arguments.commonOptions

def hashOptions : List OptionSpec := ⟨"--input", true⟩ :: Arguments.commonOptions

def reconcileOptions : List OptionSpec :=
  ["--config", "--remote", "--state", "--output", "--report"].map (⟨·, true⟩) ++
    ⟨"--data-source", false⟩ :: Arguments.commonOptions

def template (a : Arguments) : Except UsageError Command :=
  .ok (.writeTemplate ((a.value? "--output").getD Settings.defaultFile))

def reconciliation (a : Arguments) : Except UsageError Command := do
  let settings ← a.required "--config"
  let remote ← a.required "--remote"
  let state ← a.required "--state"
  .ok (.reconcile ⟨settings, remote, state, a.value? "--output", a.value? "--report",
    a.has "--data-source"⟩)

def hashing (a : Arguments) : Except UsageError Command := do
  .ok (.hash (← a.required "--input"))

def table : List (String × List OptionSpec × (Arguments → Except UsageError Command)) :=
  [("generate-config", templateOptions, template),
   ("reconcile", reconcileOptions, reconciliation),
   ("hash", hashOptions, hashing)]

def level (name : String) : Except UsageError Log.Level :=
  match Log.Level.all.find? fun l => Text.lower l.name == Text.lower name with
  | some l => .ok l
  | none => .error (.unknownLevel name)

def checkPaths (paths : List String) : Except UsageError Unit :=
  match (paths.map Path.ofString).find? Path.hasNull with
  | some path => .error (.path ⟨.nullCharacter, path⟩)
  | none => .ok ()

/-- Help or version, whichever is asked for first. -/
def information? (a : Arguments) : Option Intent :=
  (a.options.find? fun o => o.1 == Arguments.help || o.1 == "--version").map fun o =>
    if o.1 = "--version" then .version else .help

/-- A name that no command has. If it is that of an option, the option may ask for help after
all. -/
def unknown (name : String) (args : List String) : Except UsageError Intent := do
  let a ← Arguments.scan programOptions false (name :: args)
  match information? a with
  | some i => .ok i
  | none => .error (.unknownCommand name)

/-- The arguments after the name of a command. Help is given before anything is missing. -/
def subcommand (level : Option Log.Level) (name : String) (args : List String) :
    Except UsageError Intent :=
  match table.lookup name with
  | none => unknown name args
  | some (specs, read) => do
    let a ← Arguments.scan specs true args
    if a.has Arguments.help then .ok .help
    else do
      checkPaths (a.values specs)
      let command ← read a
      match a.rest with
      | [] => .ok (.invoke ⟨level, command⟩)
      | text :: _ => .error (.unexpectedArgument text)

def intent (args : List String) : Except UsageError Intent := do
  let a ← Arguments.scan programOptions false args
  match information? a with
  | some i => .ok i
  | none =>
    let level ← (a.value? "--log-level").mapM level
    match a.rest with
    | [] => .error .commandMissing
    | name :: args => subcommand level name args

end Command

end Reconciliation
