import Reconciliation.Value.Entries
import Reconciliation.Yaml.Form
import Reconciliation.Yaml.Graph
import Reconciliation.Yaml.Token

/-! # The graph that tokens describe

Tokens are read one after the other into a stack of collections part way through. A node may be
left out wherever the next token can follow one. An alias stands for the node of its anchor,
which may be a collection that is still open.
-/
namespace Reconciliation.Yaml

/-- Tag handles and what they stand for. -/
abbrev Handles := List (String × String)

def standardHandles : Handles := [("!", "!"), ("!!", Tag.standardStart)]

def TagText.name? (handles : Handles) (t : TagText) : Option String :=
  match t.handle with
  | none => some t.suffix
  | some handle => (handles.lookup handle).map (· ++ t.suffix)

structure Directives where
  versioned : Bool := false
  handles : Handles := []

/-- Reads a directive. Only major version 1 is understood, and nothing may be declared twice. -/
def Directives.next? (d : Directives) : Token → Option Directives
  | .versionDirective major =>
    if d.versioned ∨ major ≠ 1 then none else some { d with versioned := true }
  | .tagDirective handle tagPrefix =>
    if (d.handles.lookup handle).isSome then none
    else some { d with handles := (handle, tagPrefix) :: d.handles }
  | .otherDirective => some d
  | _ => none

namespace Composition

structure Marks where
  anchor : Option String := none
  tag : Option TagText := none

def Marks.none : Marks := {}

/-- The part of an entry that is being read: a key before a colon, a key without one, or the value
of a key. -/
inductive Part
  | key
  | lone
  | value (key : Nat)

/-- A collection part way through: its node, and what it holds so far, latest first. -/
inductive Frame
  | blockSequence (self : Nat) (done : List Nat)
  /-- A sequence in a mapping whose entries stand at the column of the mapping. -/
  | flushSequence (self : Nat) (done : List Nat)
  | flowSequence (self : Nat) (done : List Nat)
  | blockMapping (self : Nat) (done : Links) (part : Part)
  | flowMapping (self : Nat) (done : Links) (part : Part)
  /-- A single entry in a flow sequence. -/
  | pair (self : Nat) (part : Part)

inductive Place
  | document (directives : Option Directives)
  | element
  | node (marks : Marks)
  | after (n : Nat)
  /-- The end of the stream, after the end of the document. -/
  | documentEnded (root : Nat)
  /-- Another document, which no stream may have. -/
  | surplus (directives : Directives)
  | streamEnded (root : Option Nat)

structure Progress where
  graph : Graph := #[]
  /-- The nodes that are complete, latest first. -/
  complete : List Nat := []
  anchors : Entries Nat := []
  handles : Handles := standardHandles
  frames : List Frame := []
  place : Place := .document none

namespace Progress

def goTo (p : Progress) (place : Place) : Progress := { p with place := place }

def inside (p : Progress) (frame : Frame) (frames : List Frame) (place : Place) : Progress :=
  { p with frames := frame :: frames, place := place }

def add? (p : Progress) (anchor : Option String) (node : Node) : Option (Nat × Progress) :=
  let n := p.graph.size
  let p := { p with graph := p.graph.push node }
  match anchor with
  | none => some (n, p)
  | some name =>
    if p.anchors.has name then none else some (n, { p with anchors := p.anchors.set name n })

def tagName? (p : Progress) (marks : Marks) : Option (Option String) :=
  match marks.tag with
  | none => some none
  | some text => (text.name? p.handles).map some

def scalar? (p : Progress) (marks : Marks) (text : String) (plain : Bool) :
    Option (Nat × Progress) := do
  let (n, p) ← p.add? marks.anchor ⟨Form.scalarTag text plain (← p.tagName? marks), .scalar text⟩
  some (n, { p with complete := n :: p.complete, place := .after n })

def absent? (p : Progress) (marks : Marks) : Option (Nat × Progress) := p.scalar? marks "" true

def open? (p : Progress) (marks : Marks) (kind : Tag) (shape : Shape) (frame : Nat → Frame)
    (place : Place) : Option Progress := do
  let (n, p) ← p.add? marks.anchor ⟨.ofCollection kind (← p.tagName? marks), shape⟩
  some (p.inside (frame n) p.frames place)

def close (p : Progress) (n : Nat) (shape : Shape) (frames : List Frame) : Progress :=
  { p with
    graph := p.graph.setShape n shape
    complete := n :: p.complete
    frames := frames
    place := .after n }

/-- Reads the first token of a node, or one of its marks. An anchor and a tag may come in either
order. -/
def begin? (p : Progress) (marks : Marks) : Token → Option Progress
  | .alias name =>
    if marks.anchor.isSome || marks.tag.isSome then none
    else (p.anchors.get? name).map fun n => p.goTo (.after n)
  | .anchor name =>
    if marks.anchor.isSome then none
    else some (p.goTo (.node { marks with anchor := some name }))
  | .tag text =>
    if marks.tag.isSome then none
    else if marks.anchor.isSome && (text.name? p.handles).isNone then none
    else some (p.goTo (.node { marks with tag := some text }))
  | .scalar text plain => (p.scalar? marks text plain).map Prod.snd
  | .blockSequenceStart =>
    p.open? marks .sequence (.sequence []) (.blockSequence · []) .element
  | .blockMappingStart => p.open? marks .mapping (.mapping []) (.blockMapping · [] .key) .element
  | .flowSequenceStart => p.open? marks .sequence (.sequence []) (.flowSequence · []) .element
  | .flowMappingStart => p.open? marks .mapping (.mapping []) (.flowMapping · [] .key) .element
  | .blockEntry => match p.frames with
    | .blockMapping .. :: _ =>
      p.open? marks .sequence (.sequence []) (.flushSequence · []) (.node .none)
    | _ => none
  | _ => none

def element? (p : Progress) : List Frame → Token → Option Progress
  | .blockSequence self done :: frames, t => match t with
    | .blockEntry => some (p.inside (.blockSequence self done) frames (.node .none))
    | .blockEnd => some (p.close self (.sequence done.reverse) frames)
    | _ => none
  | .blockMapping self done _ :: frames, t => match t with
    | .key => some (p.inside (.blockMapping self done .key) frames (.node .none))
    | .blockEnd => some (p.close self (.mapping done.reverse) frames)
    | _ => none
  | .flowSequence self done :: frames, t =>
    let frames' := .flowSequence self done :: frames
    match t with
    | .flowSequenceEnd => some (p.close self (.sequence done.reverse) frames)
    | .key => open? { p with frames := frames' } .none .mapping (.mapping []) (.pair · .key)
      (.node .none)
    | t => begin? { p with frames := frames' } .none t
  | .flowMapping self done _ :: frames, t => match t with
    | .flowMappingEnd => some (p.close self (.mapping done.reverse) frames)
    | .key => some (p.inside (.flowMapping self done .key) frames (.node .none))
    | t => begin? { p with frames := .flowMapping self done .lone :: frames } .none t
  | _, _ => none

def separator? (p : Progress) (frames : List Frame) : Token → Option Progress
  | .flowEntry => some { p with frames := frames, place := .element }
  | .flowSequenceEnd => p.element? frames .flowSequenceEnd
  | .flowMappingEnd => p.element? frames .flowMappingEnd
  | _ => none

def lone? (p : Progress) (key : Nat) : Option (Nat × Nat × Progress) := do
  let (n, p) ← p.absent? .none
  some (key, n, p)

def after? (p : Progress) (n : Nat) : List Frame → Token → Option Progress
  | [], t => match t with
    | .documentEnd => some { p with frames := [], place := .documentEnded n }
    | .streamEnd => some { p with frames := [], place := .streamEnded (some n) }
    | t => (Directives.next? {} t).map fun d => p.goTo (.surplus d)
  | .blockSequence self done :: frames, t =>
    p.element? (.blockSequence self (n :: done) :: frames) t
  | .flushSequence self done :: frames, t => match t with
    | .blockEntry => some (p.inside (.flushSequence self (n :: done)) frames (.node .none))
    | t => after? (p.close self (.sequence (n :: done).reverse) frames) self frames t
  | .flowSequence self done :: frames, t =>
    p.separator? (.flowSequence self (n :: done) :: frames) t
  | .blockMapping self done part :: frames, t => match part, t with
    | .value k, t => p.element? (.blockMapping self ((k, n) :: done) .key :: frames) t
    | _, .value => some (p.inside (.blockMapping self done (.value n)) frames (.node .none))
    | _, t => do
      let (k, v, p) ← p.lone? n
      p.element? (.blockMapping self ((k, v) :: done) .key :: frames) t
  | .flowMapping self done part :: frames, t => match part, t with
    | .value k, t => p.separator? (.flowMapping self ((k, n) :: done) .key :: frames) t
    | .key, .value => some (p.inside (.flowMapping self done (.value n)) frames (.node .none))
    | _, t => do
      let (k, v, p) ← p.lone? n
      p.separator? (.flowMapping self ((k, v) :: done) .key :: frames) t
  | .pair self part :: frames, t => match part, t with
    | .value k, t => after? (p.close self (.mapping [(k, n)]) frames) self frames t
    | _, .value => some (p.inside (.pair self (.value n)) frames (.node .none))
    | _, t => do
      let (k, v, p) ← p.lone? n
      after? (p.close self (.mapping [(k, v)]) frames) self frames t

/-- Reads a token of a node. A token that cannot begin the node follows an absent one. -/
def node? (p : Progress) (marks : Marks) (t : Token) : Option Progress := do
  let _ ← p.tagName? marks
  match p.begin? marks t with
  | some q => some q
  | none =>
    let (n, p) ← p.absent? marks
    p.after? n p.frames t

/-- Reads a token in front of a document. A document begins with three dashes if there are
directives. -/
def document? (p : Progress) (directives : Option Directives) (t : Token) : Option Progress :=
  match t with
  | .documentStart =>
    let handles := (directives.getD {}).handles ++ standardHandles
    some { p with handles := handles, place := .node .none }
  | t => match (directives.getD {}).next? t with
    | some d => some (p.goTo (.document (some d)))
    | none =>
      if directives.isSome then none
      else match t with
        | .streamEnd => some (p.goTo (.streamEnded none))
        | t => p.begin? .none t

def next? (p : Progress) (t : Token) : Option Progress :=
  match p.place with
  | .document directives => p.document? directives t
  | .element => p.element? p.frames t
  | .node marks => p.node? marks t
  | .after n => p.after? n p.frames t
  | .documentEnded n => match t with
    | .documentEnd => some p
    | .streamEnd => some (p.goTo (.streamEnded (some n)))
    | t => (Directives.next? {} t).map fun d => p.goTo (.surplus d)
  | .surplus d => (d.next? t).map fun d => p.goTo (.surplus d)
  | .streamEnded _ => none

end Progress

end Composition

structure Document where
  graph : Graph
  /-- The nodes in the order in which they are complete. -/
  order : List Nat
  root : Nat

namespace Document

def progress (ts : List Token) : Except Error Composition.Progress :=
  match ts.foldlM Composition.Progress.next? ({} : Composition.Progress) with
  | some p => .ok p
  | none => .error .malformed

def ofTokens? (ts : List Token) : Except Error (Option Document) := do
  let p ← progress ts
  match p.place with
  | .streamEnded root => .ok (root.map fun root => ⟨p.graph, p.complete.reverse, root⟩)
  | _ => .error .malformed

end Document

end Reconciliation.Yaml
