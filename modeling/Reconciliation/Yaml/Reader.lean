import Reconciliation.Yaml.Composition
import Reconciliation.Yaml.Content
import Reconciliation.Yaml.Layout

/-! # Values from YAML texts

The value of a node is built from those of the nodes inside it, in the order in which the nodes are
complete. A node inside itself has no value of finite size: it is unfolded so often that whoever
reads the value, and comes to an end, has come to an end before.
-/
namespace Reconciliation.Yaml

namespace Content

def targets : Content → List Nat
  | value _ => []
  | items ns => ns
  | pairs es => es.flatMap fun e => [e.1, e.2]
  | entries es => es.map Prod.snd

def toValue (valueOf : Nat → Value) : Content → Value
  | value v => v
  | items ns => .array (ns.map valueOf)
  | pairs es => .array (es.map fun e => .array [valueOf e.1, valueOf e.2])
  | entries es => .object (Entries.ofList (es.map fun e => (e.1, valueOf e.2)))

end Content

namespace Contents

def pending : Value := Scalar.outside false

def pass (c : Contents) (order : List Nat) (vs : Array Value) : Array Value :=
  order.foldl (fun vs n => match c.contentOf n with
    | some content => vs.setIfInBounds n (content.toValue fun m => vs[m]?.getD pending)
    | none => vs) vs

/-- The number of times that a node leads to one that comes later, or to itself. -/
def lateTargets (c : Contents) (order : List Nat) : Nat :=
  (order.foldl (fun (count, done) n =>
    let late := match c.contentOf n with
      | some content => content.targets.countP fun m => !done[m]?.getD false
      | none => 0
    (count + late, done.setIfInBounds n true)) (0, Array.replicate c.found.size false)).1

/-- The most ways in which a reader looks at one node. -/
def waysToRead : Nat := 8

/-- The value of the root. A reader that looks twice at a node in one way, on the way from the
root, would do so for ever, so it follows each late target at most so many times. -/
def rootValue (c : Contents) (order : List Nat) (root : Nat) : Value :=
  let passes := waysToRead * c.lateTargets order + 1
  let vs := passes.repeat (c.pass order) (Array.replicate c.found.size pending)
  vs[root]?.getD pending

end Contents

def Document.value (d : Document) : Except Error Value := do
  let c ← Contents.ofRoot d.graph d.root
  .ok (c.rootValue d.order d.root)

/-- The value of a text with one document, or null if there is no document. Of several entries
with one key the last one counts, and a written entry wins over a merged one. A character that
cannot be read counts unless the text is not well formed up to there. -/
def read? (text : String) : Except Error Value := do
  let ts ← Layout.read text.toList
  match ts.fault with
  | some f => do
    let _ ← Document.progress ts.known
    .error (.fault f)
  | none => match ← Document.ofTokens? ts.known with
    | some d => d.value
    | none => .ok .null

end Reconciliation.Yaml
