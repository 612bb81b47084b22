import Reconciliation.Files.Tree

/-! # A template for settings -/
namespace Reconciliation.Settings

def defaultFile : String := "reconciler.yaml"

def templateLines : List String :=
  ["# Reconciliation configuration template for state-reconciler.",
   "# Replace every <REQUIRED> placeholder before running reconcile.",
   "# Replace <OPTIONAL> placeholders only when your setup needs them.",
   "",
   "schema:",
   "  # Provide either an inline resource schema declaration or a declaration path.",
   "  path: \"<REQUIRED>\"",
   "  # inline: \"<OPTIONAL>\"",
   "",
   "reconciliation:",
   "  # Name used in log and timeout messages.",
   "  resource_name: \"<OPTIONAL>\"",
   "  # Keep the prior order of lists declared with ignore_order: true.",
   "  ignore_list_order: true",
   "  # Fail when the payload does not carry the identifier property.",
   "  require_identifier: true",
   "  timeout_seconds: 30",
   "",
   "logging:",
   "  # One of DEBUG, INFO, WARNING, ERROR, CRITICAL.",
   "  level: \"WARNING\""]

def template : String := String.join (templateLines.map (· ++ "\n"))

inductive TemplateError
  | present (path : Path)
  | file (e : FileError)
deriving DecidableEq

def TemplateError.message : TemplateError → String
  | present path => "Configuration file already exists: " ++ path.text
  | file e => e.message

def writeTemplate (files : FileTree) (path : Path) : Except TemplateError FileTree :=
  match files.has path with
  | .error e => .error (.file e)
  | .ok true => .error (.present (files.resolve path))
  | .ok false => (files.write path (.text template)).mapError .file

end Reconciliation.Settings
