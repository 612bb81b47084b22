import Reconciliation.Yaml.Graph
import Reconciliation.Yaml.Scalar

/-! # What the nodes of a graph stand for

Scalars have their value at once, and a collection has its contents when its turn comes: level by
level, from the outside in. So of several faults the one nearest to the root counts, and of those
of one level the first.
-/
namespace Reconciliation.Yaml

inductive Content
  | value (v : Value)
  | items (ns : List Nat)
  /-- Keys and values that are no mapping. -/
  | pairs (es : Links)
  | entries (es : List (String × Nat))

/-- The contents found so far, and the collections that wait for their turn, latest first. -/
structure Contents where
  graph : Graph
  /-- The number of entries in the graph. -/
  links : Nat
  found : Array (Option Content)
  waiting : List Nat := []

namespace Contents

def set (c : Contents) (n : Nat) (content : Content) : Contents :=
  { c with found := c.found.setIfInBounds n (some content) }

def contentOf (c : Contents) (n : Nat) : Option Content := (c.found[n]?).join

def scalar (g : Graph) (n : Nat) : Except Error Value :=
  match g.text? n with
  | none => .error .malformed
  | some text =>
    if g.tagOf n = .timestamp && g.isMapping n then .error (.fault .dateOfMapping)
    else Scalar.value (g.tagOf n) text

def visit (c : Contents) (n : Nat) : Except Error Contents :=
  if (c.contentOf n).isSome then .ok c
  else if (c.graph.tagOf n).isCollection then
    .ok { c.set n (.items []) with waiting := n :: c.waiting }
  else do .ok (c.set n (.value (← scalar c.graph n)))

/-- The text of a key. A key that is no text is kept under the empty one, which no reader asks
for. -/
def keyText (c : Contents) (n : Nat) : String :=
  match c.contentOf n with
  | some (.value (.string s)) => s
  | _ => ""

def visitEntries (c : Contents) : Links → Except Error Contents
  | [] => .ok c
  | (k, v) :: es => do
    let c ← c.visit k
    if (c.graph.tagOf k).isCollection then .error .malformed
    else visitEntries (← c.visit v) es

def mapping (c : Contents) (n : Nat) : Except Error (Contents × Links) :=
  if c.graph.isMapping n then do
    let g ← Graph.flattenWithin (c.links + 1) c.graph n
    let c ← visitEntries { c with graph := g } (g.links n)
    .ok (c, g.links n)
  else .error .malformed

def visitPairs (c : Contents) : List Nat → Except Error (Contents × Links)
  | [] => .ok (c, [])
  | n :: ns => match c.graph.shapeOf n with
    | .mapping [(k, v)] => do
      let c ← c.visit k
      let c ← c.visit v
      let (c, es) ← visitPairs c ns
      .ok (c, (k, v) :: es)
    | _ => .error .malformed

def fill (c : Contents) (n : Nat) : Except Error Contents :=
  match c.graph.tagOf n, c.graph.shapeOf n with
  | .sequence, .sequence ns => do
    let c ← ns.foldlM visit c
    .ok (c.set n (.items ns))
  | .pairs, .sequence ns => do
    let (c, es) ← c.visitPairs ns
    .ok (c.set n (.pairs es))
  | .mapping, _ => do
    let (c, es) ← c.mapping n
    .ok (c.set n (.entries (es.map fun e => (c.keyText e.1, e.2))))
  | .set, _ => do
    let (c, es) ← c.mapping n
    .ok (c.set n (.value (Scalar.outside es.isEmpty)))
  | _, _ => .error .malformed

def fillLevels : Nat → Contents → Except Error Contents
  | 0, c => .ok c
  | levels + 1, c =>
    if c.waiting.isEmpty then .ok c
    else do fillLevels levels (← c.waiting.reverse.foldlM fill { c with waiting := [] })

/-- The contents of all nodes that the root leads to. No node has more than one turn. -/
def ofRoot (g : Graph) (root : Nat) : Except Error Contents := do
  let c : Contents := { graph := g, links := g.linkCount, found := Array.replicate g.size none }
  fillLevels g.size (← c.visit root)

end Contents

end Reconciliation.Yaml
