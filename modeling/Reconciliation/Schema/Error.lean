import Reconciliation.Yaml.Error

/-! # What can be wrong with a schema -/
namespace Reconciliation

/-- Labels name a place in a declaration, paths name a property. -/
inductive SchemaError
  | unreadable (reason : String)
  /-- A scalar that stands for nothing. -/
  | invalidScalar (fault : Yaml.Fault)
  | notMapping (label : String)
  | notBoolean (label : String)
  | notList (label : String)
  | noProperties (label : String)
  | unnamed (label : String)
  | blankName (label : String)
  | kindNotString (path : String)
  | unknownKind (path written : String)
  | itemsNotPrimitive (path : String)
  | itemsMissing (path : String)
  | keyNotStrings (path : String)
  | blankKeyEntry (path : String)
  | keyMisplaced (path : String)
  | preferredNameNotString (path : String)
  | duplicateProperty (name : String)
  | unknownProperty (name : String)
  | severalIdentifiers (names : List String)
  | noIdentifier
deriving DecidableEq, Inhabited

namespace SchemaError

def message : SchemaError → String
  | unreadable reason => "Invalid resource schema declaration: " ++ reason
  | invalidScalar fault => fault.message
  | notMapping label => label ++ " must be a mapping."
  | notBoolean label => label ++ " must be a boolean."
  | notList label => label ++ " must be a list of properties."
  | noProperties label => label ++ " must declare at least one property."
  | unnamed label => label ++ " entries must include a name."
  | blankName label => label ++ " names must be non-empty strings."
  | kindNotString path => path ++ ".type must be a string."
  | unknownKind path written => path ++ ".type '" ++ written ++ "' is not supported."
  | itemsNotPrimitive path => path ++ ".items must name a primitive type or declare properties."
  | itemsMissing path => path ++ ".items is required for list and set properties."
  | keyNotStrings path => path ++ ".correlation_key must be a string or list of strings."
  | blankKeyEntry path => path ++ ".correlation_key entries must be non-empty strings."
  | keyMisplaced path => path ++ ".correlation_key is only supported on sets of objects."
  | preferredNameNotString path => path ++ ".preferred_name must be a string."
  | duplicateProperty name => "Duplicate schema property detected: " ++ name
  | unknownProperty name =>
    "Property '" ++ name ++ "' is not declared in the resource schema."
  | severalIdentifiers names =>
    "Only one identifier property may be declared, found: " ++ ", ".intercalate names
  | noIdentifier => "Resource schema does not declare an identifier property."

end SchemaError

end Reconciliation
