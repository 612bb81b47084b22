import Reconciliation.Files.Path

/-! # Where a schema comes from -/
namespace Reconciliation

structure SchemaSource where
  text : String
  path : Option Path

end Reconciliation
