import Reconciliation.Schema.Error
import Reconciliation.Schema.StateName

/-! # Resource schemas -/
namespace Reconciliation

/-- The type of a property. A schema built by hand may name a kind that nothing supports. -/
inductive Kind
  | string
  | integer
  | float
  | boolean
  | object
  | list
  | set
  | other (name : String)
deriving DecidableEq

namespace Kind

def text : Kind → String
  | string => "string"
  | integer => "integer"
  | float => "float"
  | boolean => "boolean"
  | object => "object"
  | list => "list"
  | set => "set"
  | other name => name

def named (name : String) : Kind :=
  ([string, integer, float, boolean, object, list, set].find? fun k => k.text == name).getD
    (other name)

def isPrimitive : Kind → Bool
  | string | integer | float | boolean => true
  | _ => false

def isCollection : Kind → Bool
  | list | set => true
  | _ => false

end Kind

mutual

/-- One named node of a schema. Values are read under its name and stored under its state
name. -/
structure Property where
  name : String
  kind : Kind
  writeOnly : Bool := false
  ignoreOrder : Bool := false
  /-- The schema of an object, or of the objects in a collection. -/
  element : Option Schema := none
  /-- The kind of the items of a primitive collection. -/
  itemKind : Option Kind := none
  isIdentifier : Bool := false
  preferredName : Option String := none
  /-- The fields, by payload name, that tell the elements of a set apart. -/
  correlationKey : List String := []

structure Schema where
  properties : List Property
  /-- An object is stored in a one-element array. -/
  wraps : Bool := false

end

namespace Property

/-- The preferred name, or the name in snake case if there is none. -/
def stateName (p : Property) : String :=
  match p.preferredName with
  | some name => if name = "" then StateName.snakeCase p.name else name
  | none => StateName.snakeCase p.name

def isPrimitiveCollection (p : Property) : Bool :=
  p.kind.isCollection && p.element.isNone && p.itemKind.any Kind.isPrimitive

def isObjectCollection (p : Property) : Bool := p.kind.isCollection && p.element.isSome

def shouldIgnoreOrder (p : Property) : Bool := p.kind = .list && p.ignoreOrder

/-- The merged object is stored in a one-element array. -/
def wraps (p : Property) : Bool := p.kind = .object && p.element.any Schema.wraps

end Property

namespace Schema

def propertyNames (s : Schema) : List String := s.properties.map Property.name

/-- The first name that occurs twice, as seen from its second occurrence. -/
def repeated? (seen : List String) : List String → Option String
  | [] => none
  | name :: names => if name ∈ seen then some name else repeated? (name :: seen) names

def ofProperties (properties : List Property) (wraps : Bool) : Except SchemaError Schema :=
  match repeated? [] (properties.map Property.name) with
  | some name => .error (.duplicateProperty name)
  | none => .ok ⟨properties, wraps⟩

def find? (s : Schema) (name : String) : Option Property :=
  s.properties.find? fun p => p.name == name

def property (s : Schema) (name : String) : Except SchemaError Property :=
  match s.find? name with
  | some p => .ok p
  | none => .error (.unknownProperty name)

/-- The property flagged as identifier; without a flag, the property named `id`. -/
def identifier (s : Schema) : Except SchemaError Property :=
  match s.properties.filter Property.isIdentifier with
  | [p] => .ok p
  | [] => match s.find? "id" with
    | some p => .ok p
    | none => .error .noIdentifier
  | flagged => .error (.severalIdentifiers (flagged.map Property.name))

end Schema

end Reconciliation
