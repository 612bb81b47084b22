/-! # Tags

A tag tells what kind of value a node has.
-/
namespace Reconciliation.Yaml

inductive Tag
  | null
  | bool
  | int
  | float
  | string
  | binary
  | timestamp
  | sequence
  | mapping
  | set
  /-- A sequence of mappings with one entry each, whose keys may repeat. -/
  | pairs
  /-- The key of entries that a mapping takes from other mappings. -/
  | merge
  /-- The key of the value that a mapping has as a scalar. -/
  | default
  | unknown
deriving DecidableEq

namespace Tag

def standardStart : String := "tag:yaml.org,2002:"

def standard : List (String × Tag) :=
  [("null", null), ("bool", bool), ("int", int), ("float", float), ("str", string),
   ("binary", binary), ("timestamp", timestamp), ("seq", sequence), ("map", mapping),
   ("set", set), ("omap", pairs), ("pairs", pairs), ("merge", merge), ("value", default)]

def ofName (name : String) : Tag :=
  ((standard.find? fun t => standardStart ++ t.1 == name).map Prod.snd).getD unknown

/-- The name that leaves the kind of value to the form of the node. -/
def neutral : String := "!"

def ofCollection (kind : Tag) : Option String → Tag
  | none => kind
  | some name => if name = neutral then kind else ofName name

def isCollection : Tag → Bool
  | sequence | mapping | set | pairs => true
  | _ => false

end Tag

end Reconciliation.Yaml
