import Reconciliation.Files.Path

/-! # Events worth a record -/
namespace Reconciliation.Log

inductive Level
  | debug
  | info
  | warning
  | error
  | critical
deriving DecidableEq

namespace Level

def all : List Level := [debug, info, warning, error, critical]

def name : Level → String
  | debug => "DEBUG"
  | info => "INFO"
  | warning => "WARNING"
  | error => "ERROR"
  | critical => "CRITICAL"

/-- Severity, ten to a step. -/
def number : Level → Nat
  | debug => 10
  | info => 20
  | warning => 30
  | error => 40
  | critical => 50

def named? (name : String) : Option Level := all.find? fun l => l.name == name

end Level

inductive Event
  | duplicateSkipped (property : String) (hash : UInt32)
  | undeclaredProperty (property : String)
  | identifierAssigned (identifier : String)
  | runStarted (resource remote state : String)
  | identifierKept (identifier : Option String)
  | stateWritten (path : Path) (changed : Nat)
deriving DecidableEq

namespace Event

def level : Event → Level
  | duplicateSkipped .. | identifierAssigned .. => .debug
  | runStarted .. | identifierKept .. | stateWritten .. => .info
  | undeclaredProperty .. => .warning

def channel : Event → String
  | duplicateSkipped .. => "state_reconciler.state_merging.collection_reconciliation"
  | undeclaredProperty .. | identifierAssigned .. => "state_reconciler.state_writing.state_update"
  | runStarted .. | identifierKept .. | stateWritten .. =>
    "state_reconciler.run_execution.reconciliation_run_use_case"

def message : Event → String
  | duplicateSkipped property hash =>
    "Set property '" ++ property ++ "' already holds an element with hash " ++
      toString hash.toNat ++ "; skipping duplicate."
  | undeclaredProperty property =>
    "The API returned a property that is not declared in the resource schema: Property '" ++
      property ++ "' is not declared in the resource schema."
  | identifierAssigned identifier => "Resource identifier set to '" ++ identifier ++ "'."
  | runStarted resource remote state =>
    "Reconciling '" ++ resource ++ "' from " ++ remote ++ " against " ++ state ++ "."
  | identifierKept identifier =>
    "Payload carries no identifier; keeping '" ++ identifier.getD "None" ++ "'."
  | stateWritten path changed =>
    "Merged state written to " ++ path.text ++ " (" ++ toString changed ++
      " properties changed)."

def line (e : Event) : String :=
  e.channel ++ " - " ++ e.level.name ++ " - " ++ e.message

end Event

end Reconciliation.Log
