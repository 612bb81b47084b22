import Reconciliation.Yaml.Error
import Reconciliation.Yaml.Tag

/-! # The graph of a document

Nodes are known by number, so that one node can stand in several places, even inside itself.
Merging replaces an entry by the entries of other mappings.
-/
namespace Reconciliation.Yaml

abbrev Links := List (Nat × Nat)

inductive Shape
  | scalar (text : String)
  | sequence (items : List Nat)
  | mapping (entries : Links)

structure Node where
  tag : Tag
  shape : Shape

abbrev Graph := Array Node

namespace Graph

def tagOf (g : Graph) (n : Nat) : Tag := (g[n]?.map Node.tag).getD .unknown

def shapeOf (g : Graph) (n : Nat) : Shape := (g[n]?.map Node.shape).getD (.scalar "")

def links (g : Graph) (n : Nat) : Links :=
  match g.shapeOf n with
  | .mapping es => es
  | _ => []

def isMapping (g : Graph) (n : Nat) : Bool :=
  match g.shapeOf n with
  | .mapping _ => true
  | _ => false

def setShape (g : Graph) (n : Nat) (shape : Shape) : Graph :=
  g.modify n fun node => { node with shape := shape }

def linkCount (g : Graph) : Nat := g.foldl (fun n node => n + (match node.shape with
  | .mapping es => es.length
  | _ => 0)) 0

def textWithin (g : Graph) : Nat → Nat → Option String
  | 0, _ => none
  | depth + 1, n => match g.shapeOf n with
    | .scalar text => some text
    | .sequence _ => none
    | .mapping es => match es.find? fun e => g.tagOf e.1 = .default with
      | some e => g.textWithin depth e.2
      | none => none

/-- A default value that leads on through more nodes than there are leads nowhere. -/
def text? (g : Graph) (n : Nat) : Option String := g.textWithin (g.size + 1) n

/-! ### Merging -/

def plainKey (g : Graph) (n : Nat) : Graph :=
  if g.tagOf n = .default then g.modify n fun node => { node with tag := .string } else g

def takeMerge? (g : Graph) (n : Nat) : Option (Nat × Graph) :=
  let isMerge (e : Nat × Nat) : Bool := g.tagOf e.1 = .merge
  let before := (g.links n).takeWhile (!isMerge ·)
  match (g.links n).drop before.length with
  | e :: after => some (e.2, g.setShape n (.mapping (before ++ after)))
  | [] => none

def prepend (g : Graph) (n : Nat) (es : Links) : Graph :=
  if es.isEmpty then g else g.setShape n (.mapping (es ++ g.links n))

/-- Mappings without merging entries, and their entries, those of the last mapping first. -/
def flattened (flatten : Graph → Nat → Except Error Graph) (g : Graph) :
    List Nat → Except Error (Graph × Links)
  | [] => .ok (g, [])
  | n :: ns =>
    if g.isMapping n then do
      let g ← flatten g n
      let (g', es) ← flattened flatten g ns
      .ok (g', es ++ g.links n)
    else .error .malformed

/-- What an entry that merges stands for: one mapping, or a sequence of mappings, of which an
earlier one wins over a later one. -/
def merged (flatten : Graph → Nat → Except Error Graph) (g : Graph) (n : Nat) :
    Except Error (Graph × Links) :=
  match g.shapeOf n with
  | .mapping _ => flattened flatten g [n]
  | .sequence ns => flattened flatten g ns
  | .scalar _ => .error .malformed

/-- Replaces the entries of a mapping that merge. Each step takes one of them out of the graph, so
there are no more steps than entries. -/
def flattenWithin : Nat → Graph → Nat → Except Error Graph
  | 0, _, _ => .error .malformed
  | steps + 1, g, n => match g.takeMerge? n with
    | none => .ok ((g.links n).foldl (fun g e => g.plainKey e.1) g)
    | some (source, g) => do
      let (g, es) ← merged (flattenWithin steps) g source
      let g ← flattenWithin steps g n
      .ok (g.prepend n es)

end Graph

end Reconciliation.Yaml
