import Reconciliation.Schema.Basic
import Reconciliation.Text.Blank
import Reconciliation.Value.Basic

/-! # Schemas from declarations

A declaration is a value tree. Each function reads one kind of node, so the reading descends with
the tree; `scope` is the dotted path of the declaration being read.
-/
namespace Reconciliation.Declaration

def label (scope key : String) : String := if scope = "" then key else scope ++ "." ++ key

/-- The spellings of the kinds, without regard to case and surrounding white space. -/
def kindNames : List (String × Kind) :=
  [("string", .string), ("str", .string), ("integer", .integer), ("int", .integer),
   ("float", .float), ("number", .float), ("boolean", .boolean), ("bool", .boolean),
   ("object", .object), ("list", .list), ("array", .list), ("set", .set)]

def kind (path : String) : Value → Except SchemaError Kind
  | .string written => match kindNames.lookup (Text.lower (Text.trim written)) with
    | some k => .ok k
    | none => .error (.unknownKind path written)
  | _ => .error (.kindNotString path)

def flag (path key : String) (es : Entries Value) : Except SchemaError Bool :=
  match es.get? key with
  | none => .ok false
  | some (.bool b) => .ok b
  | some _ => .error (.notBoolean (path ++ "." ++ key))

/-- Whether objects are wrapped: as declared, or else as in the enclosing schema. -/
def wrapping (scope : String) (inherited : Bool) (es : Entries Value) : Except SchemaError Bool :=
  match es.get? "wrap_nested_objects" with
  | none => .ok inherited
  | some (.bool b) => .ok b
  | some _ => .error (.notBoolean (label scope "wrap_nested_objects"))

def keyEntry (path : String) : Value → Except SchemaError String
  | .string s => if Text.blank s then .error (.blankKeyEntry path) else .ok (Text.trim s)
  | _ => .error (.blankKeyEntry path)

def correlationKey (path : String) : Value → Except SchemaError (List String)
  | .null => .ok []
  | .array fields => fields.mapM (keyEntry path)
  | .string field => do .ok [← keyEntry path (.string field)]
  | _ => .error (.keyNotStrings path)

def preferredName (path : String) : Value → Except SchemaError (Option String)
  | .null => .ok none
  | .string s => .ok (if Text.blank s then none else some (Text.trim s))
  | _ => .error (.preferredNameNotString path)

def name (scope : String) (es : Entries Value) : Except SchemaError String :=
  match es.get? "name" with
  | none => .error (.unnamed (label scope "properties"))
  | some (.string s) =>
    if Text.blank s then .error (.blankName (label scope "properties")) else .ok s
  | some _ => .error (.blankName (label scope "properties"))

abbrev Items := Option Schema × Option Kind

def primitiveItems (path : String) (written : Value) : Except SchemaError Items := do
  let k ← kind (path ++ ".items") written
  if k.isPrimitive then .ok (none, some k) else .error (.itemsNotPrimitive path)

/-- The schema declared by the entries of a mapping, given how its properties are read. -/
def assembled (scope : String) (inherited : Bool) (es : Entries Value)
    (listed : Bool → Except SchemaError (List Property)) : Except SchemaError Schema := do
  let wraps ← wrapping scope inherited es
  let properties ← listed wraps
  Schema.ofProperties properties wraps

mutual

def propertiesEntry (scope : String) (wraps : Bool) (es : List (String × Value)) :
    Except SchemaError (List Property) :=
  match es with
  | [] => .error (.notList (label scope "properties"))
  | (k, v) :: es =>
    if k = "properties" then propertyList scope wraps v else propertiesEntry scope wraps es
termination_by structural es

def propertyList (scope : String) (wraps : Bool) (v : Value) :
    Except SchemaError (List Property) :=
  match v with
  | .array [] => .error (.noProperties (label scope "properties"))
  | .array declarations => properties scope wraps declarations
  | _ => .error (.notList (label scope "properties"))
termination_by structural v

def properties (scope : String) (wraps : Bool) (declarations : List Value) :
    Except SchemaError (List Property) :=
  match declarations with
  | [] => .ok []
  | d :: ds => do
    let p ← property scope wraps d
    let ps ← properties scope wraps ds
    .ok (p :: ps)
termination_by structural declarations

/-- One property. The first fault in the order of the fields below is the one reported. -/
def property (scope : String) (wraps : Bool) (v : Value) : Except SchemaError Property :=
  match v with
  | .object es => do
    let name ← name scope es
    let path := label scope name
    let kind ← kind path (Value.field es "type")
    let (element, itemKind) ← match kind with
      | .object => do
        let nested ← assembled path wraps es fun wraps => propertiesEntry path wraps es
        .ok (some nested, none)
      | .list | .set => itemsEntry path wraps es
      | _ => .ok ((none, none) : Items)
    let key ← correlationKey path (Value.field es "correlation_key")
    if !key.isEmpty && !(kind = .set && element.isSome) then .error (.keyMisplaced path)
    let writeOnly ← flag path "write_only" es
    let ignoreOrder ← flag path "ignore_order" es
    let isIdentifier ← flag path "identifier" es
    let preferred ← preferredName path (Value.field es "preferred_name")
    .ok ⟨name, kind, writeOnly, ignoreOrder, element, itemKind, isIdentifier, preferred, key⟩
  | _ => .error (.unnamed (label scope "properties"))
termination_by structural v

def itemsEntry (path : String) (wraps : Bool) (es : List (String × Value)) :
    Except SchemaError Items :=
  match es with
  | [] => .error (.itemsMissing path)
  | (k, v) :: es => if k = "items" then items path wraps v else itemsEntry path wraps es
termination_by structural es

/-- A primitive kind, a mapping that declares properties, or a mapping whose type says either. -/
def items (path : String) (wraps : Bool) (v : Value) : Except SchemaError Items :=
  match v with
  | .string s => primitiveItems path (.string s)
  | .object es =>
    if Entries.has es "properties" then do
      let scope := path ++ ".items"
      let nested ← assembled scope wraps es fun wraps => propertiesEntry scope wraps es
      .ok (some nested, none)
    else typeEntry path wraps es
  | _ => .error (.itemsMissing path)
termination_by structural v

def typeEntry (path : String) (wraps : Bool) (es : List (String × Value)) :
    Except SchemaError Items :=
  match es with
  | [] => .error (.itemsMissing path)
  | (k, v) :: es => if k = "type" then items path wraps v else typeEntry path wraps es
termination_by structural es

end

def schema : Value → Except SchemaError Schema
  | .object es => assembled "" false es fun wraps => propertiesEntry "" wraps es
  | _ => .error (.notMapping "schema")

end Reconciliation.Declaration
