import Reconciliation.Schema.Declaration
import Reconciliation.Yaml.Reader

/-! # Schemas from texts -/
namespace Reconciliation.Schema

/-- The schema that a text declares, in YAML or in JSON, which is YAML too. -/
def read (text : String) : Except SchemaError Schema :=
  match Yaml.read? text with
  | .ok v => Declaration.schema v
  | .error (.fault f) => .error (.invalidScalar f)
  | .error .malformed => .error (.unreadable Yaml.Error.malformed.message)

end Reconciliation.Schema
