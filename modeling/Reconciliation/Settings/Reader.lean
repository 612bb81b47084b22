import Reconciliation.Files.Tree
import Reconciliation.Settings.Basic
import Reconciliation.Text.Blank
import Reconciliation.Text.Case
import Reconciliation.Yaml.Reader

/-! # Settings from files -/
namespace Reconciliation.Settings

def required (name : String) : Value → Except SettingsError (Entries Value)
  | .object es => .ok es
  | _ => .error (.missingSection name)

def optional (name : String) : Value → Except SettingsError (Entries Value)
  | .null => .ok []
  | .object es => .ok es
  | _ => .error (.sectionNotMapping name)

def fieldOr (es : Entries Value) (key : String) (default : Value) : Value :=
  (es.get? key).getD default

def textField (field : String) : Value → Except SettingsError String
  | .string s => if Text.blank s then .error (.empty field) else .ok (Text.trim s)
  | _ => .error (.notString field)

def flagField (field : String) : Value → Except SettingsError Bool
  | .bool b => .ok b
  | _ => .error (.notBoolean field)

def positiveField (field : String) : Value → Except SettingsError { n : Int // 0 < n }
  | .int n => if h : 0 < n then .ok ⟨n, h⟩ else .error (.notPositive field)
  | _ => .error (.notInteger field)

def levelField (field : String) (v : Value) : Except SettingsError Log.Level := do
  match Log.Level.named? (Text.upper (← textField field v)) with
  | some l => .ok l
  | none => .error (.unknownLevel field)

/-- The file of a schema: a relative path starts at the directory of the settings. -/
def schemaPath (files : FileTree) (directory written : Path) : Except FileError Path :=
  if written.isAbsolute then .ok written else files.resolved (directory.join written)

def textOr (missing : SettingsError) (files : FileTree) (path : Path) :
    Except SettingsError String :=
  match files.has path with
  | .error e => .error (.file e)
  | .ok false => .error missing
  | .ok true => (files.read path).mapError .file

def schemaFile (files : FileTree) (path : Path) : Except SettingsError SchemaSource := do
  let text ← textOr (.missingSchema path) files path
  if Text.blank text then .error .emptySchema else .ok ⟨text, some path⟩

/-- The schema is given by its text or by a file. A field that counts as nothing is left out. -/
def schemaField (files : FileTree) (directory : Path) (v : Value) :
    Except SettingsError SchemaSource := do
  let es ← required "schema" v
  let inline := Value.field es "inline"
  let path := Value.field es "path"
  if !inline.isNothing && !path.isNothing then .error .inlineAndPath
  else if !inline.isNothing then match inline with
    | .string text => .ok ⟨text, none⟩
    | _ => .error (.notString "schema.inline")
  else if !path.isNothing then match path with
    | .string written => do
      schemaFile files
        (← (schemaPath files directory (Path.ofString written)).mapError .file)
    | _ => .error (.notString "schema.path")
  else .error .noSchema

def ofEntries (files : FileTree) (path : Path) (es : Entries Value) :
    Except SettingsError Settings := do
  let schema ← schemaField files path.parent (Value.field es "schema")
  let run ← optional "reconciliation" (Value.field es "reconciliation")
  let name ← textField "reconciliation.resource_name"
    (fieldOr run "resource_name" (.string "resource"))
  let ignoreListOrder ← flagField "reconciliation.ignore_list_order"
    (fieldOr run "ignore_list_order" (.bool true))
  let requireIdentifier ← flagField "reconciliation.require_identifier"
    (fieldOr run "require_identifier" (.bool true))
  let timeout ← positiveField "reconciliation.timeout_seconds"
    (fieldOr run "timeout_seconds" (.int 30))
  let logging ← optional "logging" (Value.field es "logging")
  let level ← levelField "logging.level" (fieldOr logging "level" (.string "WARNING"))
  .ok ⟨path, schema, name, ignoreListOrder, requireIdentifier, timeout.val, timeout.property, level⟩

/-- The entries of a document; one without a value has none. -/
def documentEntries (text : String) : Except SettingsError (Entries Value) :=
  match Yaml.read? text with
  | .error .malformed => .error (.unreadable Yaml.Error.malformed.message)
  | .error (.fault f) => .error (.invalidScalar f)
  | .ok .null => .ok []
  | .ok (.object es) => .ok es
  | .ok _ => .error .notMapping

def load (files : FileTree) (path : Path) : Except SettingsError Settings := do
  let text ← textOr (.missingFile path) files path
  ofEntries files path (← documentEntries text)

end Reconciliation.Settings
