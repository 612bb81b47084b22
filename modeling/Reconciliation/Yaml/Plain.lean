import Reconciliation.Yaml.Token

/-! # Scalars without quotes -/
namespace Reconciliation.Yaml.Plain

def flowMarks : List Char := [',', '[', ']', '{', '}']

def starts (inFlow : Bool) (c : Cursor) : Bool :=
  let ch := c.peek
  !(endsWord ch || "-?:,[]\x7b\x7d#&*!|>'\"%@\x60".toList.contains ch) ||
    (!endsWord (c.peek 1) && (ch == '-' || (!inFlow && (ch == '?' || ch == ':'))))

def stops (inFlow : Bool) (ch next : Char) : Bool :=
  endsWord ch || (ch == ':' && (endsWord next || (inFlow && flowMarks.contains next))) ||
    (inFlow && (ch == '?' || flowMarks.contains ch))

def extent (inFlow : Bool) : List Char → Nat
  | [] => 0
  | ch :: rest =>
    if stops inFlow ch (rest.head?.getD stop) then 0 else extent inFlow rest + 1

/-- The blank lines after a line of a plain scalar; nothing if they lead to a document
boundary. -/
def blankLines (c : Cursor) : Except Error (Option (List Char) × Cursor) :=
  repeated (fun s : List Char × Cursor => s.2) (fun (done, c) =>
    match c.lineBreak? with
    | some (b, after) =>
      if after.atBoundary then .ok (.done (none, after)) else .ok (.again (done ++ [b], after))
    | none =>
      if c.peek == ' ' then .ok (.again (done, spaces c)) else .ok (.done (some done, c))) ([], c)

/-- White space after a part of a plain scalar: the text it stands for if the scalar goes on, and
whether it spans lines. -/
structure Gap where
  text : List Char
  newLine : Bool

def gap : Read Gap := fun c => do
  let (space, after) := c.run (· == ' ')
  match after.lineBreak? with
  | none => .ok (⟨space, false⟩, after)
  | some (b, after) =>
    if after.atBoundary then .ok (⟨[], true⟩, after)
    else do
      let (blank?, after) ← blankLines after
      match blank? with
      | none => .ok (⟨[], true⟩, after)
      | some blank =>
        let first := if b ≠ '\n' then [b] else if blank.isEmpty then [' '] else []
        .ok (⟨first ++ blank, true⟩, after)

structure Progress where
  done : List Char
  gap : List Char
  newLine : Bool
  place : Cursor

def text (inFlow : Bool) (indent : Int) : Read (String × Bool) := fun c =>
  repeated Progress.place (fun s =>
    let n := extent inFlow s.place.rest
    if s.place.peek == '#' || n == 0 then
      .ok (.done ((String.ofList s.done, s.newLine), s.place))
    else do
      let done := s.done ++ s.gap ++ s.place.rest.take n
      let (g, after) ← gap (s.place.forward n)
      if g.text.isEmpty || after.peek == '#' || (!inFlow && (after.column : Int) < indent + 1) then
        .ok (.done ((String.ofList done, g.newLine), after))
      else .ok (.again ⟨done, g.text, g.newLine, after⟩)) ⟨[], [], false, c⟩

end Reconciliation.Yaml.Plain
