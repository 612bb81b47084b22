import Reconciliation.Yaml.Token

/-! # Literal and folded scalars -/
namespace Reconciliation.Yaml.Block

inductive Chomping
  | clip
  | strip
  | keep
deriving DecidableEq

structure Header where
  chomping : Chomping
  increment : Option Nat

def chomping? : Char → Option Chomping
  | '+' => some .keep
  | '-' => some .strip
  | _ => none

def header : Read Header := fun c => do
  let increment (c : Cursor) : Except Error (Option Nat × Cursor) :=
    if c.peek.isDigit then do
      expect (c.peek != '0')
      .ok (some (c.peek.toNat - 48), c.next)
    else .ok (none, c)
  let (h, after) ← match chomping? c.peek with
    | some chomping => do
      let (n, after) ← increment c.next
      pure (Header.mk chomping n, after)
    | none => do
      let (n, after) ← increment c
      match if n.isSome then chomping? after.peek else none with
      | some chomping => pure (Header.mk chomping n, after.next)
      | none => pure (Header.mk .clip n, after)
  expect (endsPart after.peek)
  .ok (h, after)

/-- Blank lines before the first line of text, and the widest of their indentations. -/
def leading (c : Cursor) : Except Error ((List Char × Nat) × Cursor) :=
  repeated (fun s : (List Char × Nat) × Cursor => s.2) (fun ((breaks, widest), c) =>
    match c.lineBreak? with
    | some (b, after) => .ok (.again ((breaks ++ [b], widest), after))
    | none =>
      if c.peek == ' ' then
        let after := spaces c
        .ok (.again ((breaks, max widest after.column), after))
      else .ok (.done ((breaks, widest), c))) (([], 0), c)

def blankLines (indent : Nat) (c : Cursor) : Except Error (List Char × Cursor) :=
  repeated (fun s : List Char × Cursor => s.2) (fun (done, c) =>
    match c.lineBreak? with
    | some (b, after) => .ok (.again (done ++ [b], after.skipIndent indent))
    | none => .ok (.done (done, c))) ([], c.skipIndent indent)

structure Lines where
  done : List Char
  lineBreak : Option Char
  blank : List Char
  place : Cursor

def atLine (indent : Nat) (c : Cursor) : Bool := c.column == indent && c.peek != stop

/-- What stands between two lines of text. In a folded block a single line break between lines
that do not start with white space is a space, and is dropped before blank lines. -/
def between (folding : Bool) (leadingSpace : Bool) (b : Option Char) (blank : List Char)
    (next : Char) : List Char :=
  if folding && b == some '\n' && !leadingSpace && !(next == ' ' || next == '\t') then
    if blank.isEmpty then [' '] else []
  else b.toList

def lines (folding : Bool) (indent : Nat) (start : Lines) : Except Error Lines :=
  repeated Lines.place (fun s =>
    if atLine indent s.place then do
      let leadingSpace := s.place.peek == ' ' || s.place.peek == '\t'
      let (cs, after) := s.place.run fun ch => !endsLine ch
      let (b, after) := match after.lineBreak? with
        | some (b, after) => (some b, after)
        | none => (none, after)
      let (blank, after) ← blankLines indent after
      let done := s.done ++ s.blank ++ cs
      if atLine indent after then
        .ok (.again ⟨done ++ between folding leadingSpace b blank after.peek, none, blank, after⟩)
      else .ok (.done ⟨done, b, blank, after⟩)
    else .ok (.done s)) start

def chomped (chomping : Chomping) (s : Lines) : List Char :=
  match chomping with
  | .strip => []
  | .clip => s.lineBreak.toList
  | .keep => s.lineBreak.toList ++ s.blank

def text (folding : Bool) (parentIndent : Int) : Read String := fun c => do
  let (h, c) ← header c.next
  let c ← lineEnd c
  let least := (max (parentIndent + 1) 1).toNat
  let (indent, blank, c) ← match h.increment with
    | some n => do
      let indent := least + n - 1
      let (blank, c) ← blankLines indent c
      pure (indent, blank, c)
    | none => do
      let ((blank, widest), c) ← leading c
      pure (max least widest, blank, c)
  let s ← lines folding indent ⟨[], none, blank, c⟩
  .ok (String.ofList (s.done ++ chomped h.chomping s), s.place)

end Reconciliation.Yaml.Block
