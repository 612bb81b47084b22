import Reconciliation.Yaml.Block
import Reconciliation.Yaml.Plain
import Reconciliation.Yaml.Quoted

/-! # The tokens of a text

Blocks are told by indentation. A scalar or flow collection may turn out to be a key when a colon
follows it on its line; the key token is then put in front of it.
-/
namespace Reconciliation.Yaml

structure PossibleKey where
  /-- The number of tokens before it. -/
  token : Nat
  /-- A key must follow, because the place starts a line of a block mapping. -/
  required : Bool
  index : Nat
  line : Nat
  column : Nat

structure Layout where
  place : Cursor
  tokens : Array Token := #[]
  /-- The column of the innermost block, and those around it. -/
  indent : Int := -1
  outer : List Int := []
  /-- Possible keys, the innermost flow collection first and the blocks last. -/
  keys : List (Option PossibleKey) := [none]
  keyAllowed : Bool := true

namespace Layout

def inFlow (s : Layout) : Bool := s.keys.length > 1

def push (s : Layout) (t : Token) : Layout := { s with tokens := s.tokens.push t }

def mark (s : Layout) (t : Token) : Layout := { s.push t with place := s.place.next }

def unwind (column : Int) (s : Layout) : Layout :=
  if s.inFlow then s
  else
    let closed := (s.indent :: s.outer).takeWhile (column < ·)
    match (s.indent :: s.outer).drop closed.length with
    | indent :: outer =>
      { s with
        tokens := s.tokens ++ Array.replicate closed.length Token.blockEnd
        indent := indent
        outer := outer }
    | [] => s

/-- Opens a block at a column to the right of the innermost one, by a token at a given place. -/
def openBlock (s : Layout) (column : Nat) (t : Token) (at' : Nat) : Layout :=
  if s.indent < column then
    { s with
      tokens := s.tokens.take at' ++ #[t] ++ s.tokens.drop at'
      indent := column
      outer := s.indent :: s.outer }
  else s

def dropKey (s : Layout) : Except Error Layout :=
  match s.keys with
  | some k :: rest => do
    expect (!k.required)
    .ok { s with keys := none :: rest }
  | _ => .ok s

/-- Gives up possible keys that are not on this line or too far back. -/
def dropStaleKeys (s : Layout) : Except Error Layout := do
  let keys ← s.keys.mapM fun key => match key with
    | some k =>
      if k.line ≠ s.place.line ∨ 1024 < s.place.index - k.index then do
        expect (!k.required)
        .ok none
      else .ok (some k)
    | none => .ok none
  .ok { s with keys := keys }

def noteKey (s : Layout) : Except Error Layout :=
  if s.keyAllowed then do
    let required := !s.inFlow && s.indent == (s.place.column : Int)
    let key : PossibleKey :=
      ⟨s.tokens.size, required, s.place.index, s.place.line, s.place.column⟩
    let s ← s.dropKey
    .ok { s with keys := some key :: s.keys.tail }
  else .ok s

/-- Past spaces, comments and line breaks. A line break lets a key follow in a block. -/
def skipBlank (s : Layout) : Except Error Layout :=
  let start :=
    if s.place.index = 0 ∧ s.place.peek = byteOrderMark then { s with place := s.place.next }
    else s
  repeated Layout.place (fun s =>
    let c := spaces s.place
    let c := if c.peek == '#' then c.skipLine else c
    match c.lineBreak? with
    | some (_, after) =>
      .ok (.again { s with place := after, keyAllowed := s.keyAllowed || !s.inFlow })
    | none => .ok (.done { s with place := c })) start

/-- Ends all blocks and forgets possible keys, as document boundaries and directives do. -/
def settle (s : Layout) : Except Error Layout := do
  let s ← (s.unwind (-1)).dropKey
  .ok { s with keyAllowed := false }

def documentMark (s : Layout) (t : Token) : Except Error Layout := do
  let s ← s.settle
  .ok { s.push t with place := s.place.forward 3 }

def openFlow (s : Layout) (t : Token) : Except Error Layout := do
  let s ← s.noteKey
  .ok { s.mark t with keys := none :: s.keys, keyAllowed := true }

def closeFlow (s : Layout) (t : Token) : Except Error Layout := do
  let s ← s.dropKey
  expect s.inFlow
  .ok { s.mark t with keys := s.keys.tail, keyAllowed := false }

def flowEntry (s : Layout) : Except Error Layout := do
  let s ← dropKey { s with keyAllowed := true }
  .ok (s.mark .flowEntry)

def blockEntry (s : Layout) : Except Error Layout := do
  expect (s.inFlow || s.keyAllowed)
  let s := if s.inFlow then s
    else s.openBlock s.place.column .blockSequenceStart s.tokens.size
  let s ← dropKey { s with keyAllowed := true }
  .ok (s.mark .blockEntry)

def keyMark (s : Layout) : Except Error Layout := do
  expect (s.inFlow || s.keyAllowed)
  let s := if s.inFlow then s
    else s.openBlock s.place.column .blockMappingStart s.tokens.size
  let s ← dropKey { s with keyAllowed := !s.inFlow }
  .ok (s.mark .key)

/-- A colon makes the possible key before it a key; without one it stands for an empty key. -/
def valueMark (s : Layout) : Except Error Layout :=
  match s.keys with
  | some k :: rest =>
    let s := { s with
      tokens := s.tokens.take k.token ++ #[Token.key] ++ s.tokens.drop k.token
      keys := none :: rest }
    let s := if s.inFlow then s else s.openBlock k.column .blockMappingStart k.token
    .ok (mark { s with keyAllowed := false } .value)
  | _ => do
    expect (s.inFlow || s.keyAllowed)
    let s := if s.inFlow then s
      else s.openBlock s.place.column .blockMappingStart s.tokens.size
    let s ← dropKey { s with keyAllowed := !s.inFlow }
    .ok (s.mark .value)

def node (s : Layout) (read : Read Token) : Except Error Layout := do
  let s ← s.noteKey
  let (t, after) ← read s.place
  .ok { s.push t with place := after, keyAllowed := false }

def reading {α : Type} (read : Read α) (token : α → Token) : Read Token := fun c => do
  let (a, after) ← read c
  .ok (token a, after)

def blockScalar (s : Layout) (folding : Bool) : Except Error Layout := do
  let s ← dropKey { s with keyAllowed := true }
  let (text, after) ← Block.text folding s.indent s.place
  .ok { s.push (.scalar text false) with place := after }

def plainScalar (s : Layout) : Except Error Layout := do
  let s ← s.noteKey
  let ((text, newLine), after) ← Plain.text s.inFlow s.indent s.place
  .ok { s.push (.scalar text true) with place := after, keyAllowed := newLine }

def token (s : Layout) : Except Error Layout :=
  let c := s.place
  let wordEnds := endsWord (c.peek 1)
  match c.peek with
  | '[' => s.openFlow .flowSequenceStart
  | '{' => s.openFlow .flowMappingStart
  | ']' => s.closeFlow .flowSequenceEnd
  | '}' => s.closeFlow .flowMappingEnd
  | ',' => s.flowEntry
  | '*' => s.node (reading name .alias)
  | '&' => s.node (reading name .anchor)
  | '!' => s.node (reading tagText .tag)
  | '\'' => s.node (reading (Quoted.text false) fun text => .scalar text false)
  | '"' => s.node (reading (Quoted.text true) fun text => .scalar text false)
  | ch =>
    if ch == '%' && c.column == 0 then do
      let s ← s.settle
      let (t, after) ← directive s.place
      .ok { s.push t with place := after }
    else if c.column == 0 && c.atBoundary then
      s.documentMark (if ch == '-' then .documentStart else .documentEnd)
    else if ch == '-' && wordEnds then s.blockEntry
    else if ch == '?' && (s.inFlow || wordEnds) then s.keyMark
    else if ch == ':' && (s.inFlow || wordEnds) then s.valueMark
    else if (ch == '|' || ch == '>') && !s.inFlow then s.blockScalar (ch == '>')
    else do
      expect (Plain.starts s.inFlow c)
      s.plainScalar

def next (s : Layout) : Except Error (Step Layout Layout) := do
  let s ← s.skipBlank
  let s ← s.dropStaleKeys
  let s := s.unwind s.place.column
  if s.place.peek == stop then do
    let s ← s.settle
    .ok (.done (s.push .streamEnd))
  else do
    let s ← s.token
    .ok (.again s)

def settled (s : Layout) : Except Error (List Token) := do
  let s ← s.dropStaleKeys
  let keys := s.keys.filterMap fun key => key.map PossibleKey.token
  .ok (s.tokens.toList.take (keys.foldl min s.tokens.size))

/-- The tokens of a text: all of them, or those that are known when a character cannot be
read. -/
structure Tokens where
  known : List Token
  fault : Option Fault

/-- Reads a text. The last token is the end of the stream, unless there is a fault. -/
def read (text : List Char) : Except Error Tokens := do
  expect (text.all isPrintable)
  repeated Layout.place (fun s =>
    match s.next with
    | .ok (.again s) => .ok (.again s)
    | .ok (.done s) => .ok (.done ⟨s.tokens.toList, none⟩)
    | .error (.fault f) => do .ok (.done ⟨← s.settled, some f⟩)
    | .error .malformed => .error .malformed) { place := ⟨text, 0, 0, 0⟩ }

end Layout

end Reconciliation.Yaml
