import Reconciliation.Files.Error
import Reconciliation.Log
import Reconciliation.Schema.Source
import Reconciliation.Yaml.Error

/-! # Settings -/
namespace Reconciliation

structure Settings where
  path : Path
  schema : SchemaSource
  resourceName : String
  /-- Whether lists that declare their order meaningless keep their stored order. -/
  ignoreListOrder : Bool
  requireIdentifier : Bool
  timeoutSeconds : Int
  positive : 0 < timeoutSeconds
  level : Log.Level

/-- Why settings cannot be loaded. Names of sections and fields are those of the file. -/
inductive SettingsError
  | missingFile (path : Path)
  | unreadable (reason : String)
  /-- A scalar that stands for nothing. -/
  | invalidScalar (fault : Yaml.Fault)
  | file (e : FileError)
  | notMapping
  | missingSection (name : String)
  | sectionNotMapping (name : String)
  | inlineAndPath
  | noSchema
  | missingSchema (path : Path)
  | emptySchema
  | notString (field : String)
  | empty (field : String)
  | notBoolean (field : String)
  | notInteger (field : String)
  | notPositive (field : String)
  | unknownLevel (field : String)
deriving DecidableEq

def SettingsError.message : SettingsError → String
  | missingFile path => "Configuration file not found: " ++ path.text
  | unreadable reason => "Failed to parse configuration file: " ++ reason
  | invalidScalar fault => fault.message
  | file e => e.message
  | notMapping => "Configuration root must be a mapping."
  | missingSection name => "Configuration section '" ++ name ++ "' is required."
  | sectionNotMapping name => "Configuration section '" ++ name ++ "' must be a mapping."
  | inlineAndPath => "Schema definition must not set both inline and path."
  | noSchema => "Schema definition requires either inline or path."
  | missingSchema path => "Schema file not found: " ++ path.text
  | emptySchema => "Schema text cannot be empty."
  | notString field => field ++ " must be a string."
  | empty field => field ++ " must not be empty."
  | notBoolean field => field ++ " must be a boolean."
  | notInteger field => field ++ " must be an integer."
  | notPositive field => field ++ " must be greater than zero."
  | unknownLevel field =>
    field ++ " must be one of: " ++ ", ".intercalate (Log.Level.all.map Log.Level.name) ++ "."

end Reconciliation
