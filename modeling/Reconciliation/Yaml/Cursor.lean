import Reconciliation.Yaml.Error

/-! # A place in a YAML text

What is left of the text, and where it starts. Columns count characters since the last line break.
-/
namespace Reconciliation.Yaml

structure Cursor where
  rest : List Char
  index : Nat := 0
  line : Nat := 0
  column : Nat := 0

/-- Stands for the end of the text; no text contains it. -/
def stop : Char := '\x00'

def isBreak (c : Char) : Bool :=
  c == '\n' || c == '\r' || c == '\x85' || c == '\u2028' || c == '\u2029'

def endsLine (c : Char) : Bool := c == stop || isBreak c

def endsPart (c : Char) : Bool := c == ' ' || endsLine c

def endsWord (c : Char) : Bool := c == '\t' || endsPart c

def byteOrderMark : Char := '\ufeff'

def isPrintable (c : Char) : Bool :=
  let n := c.toNat
  n == 9 || n == 10 || n == 13 || (32 ≤ n && n ≤ 126) || n == 0x85 ||
    (0xA0 ≤ n && n ≤ 0xD7FF) || (0xE000 ≤ n && n ≤ 0xFFFD) || 0x10000 ≤ n

namespace Cursor

def peek (c : Cursor) (ahead : Nat := 0) : Char := c.rest.getD ahead stop

/-- Past one character. A carriage return before a line feed does not end the line. -/
def next (c : Cursor) : Cursor :=
  match c.rest with
  | [] => c
  | ch :: rest =>
    if isBreak ch && !(ch == '\r' && rest.head? == some '\n') then
      ⟨rest, c.index + 1, c.line + 1, 0⟩
    else ⟨rest, c.index + 1, c.line, if ch = byteOrderMark then c.column else c.column + 1⟩

def forward (c : Cursor) : Nat → Cursor
  | 0 => c
  | n + 1 => c.next.forward n

def run (c : Cursor) (p : Char → Bool) : List Char × Cursor :=
  let cs := c.rest.takeWhile p
  (cs, c.forward cs.length)

def skip (c : Cursor) (p : Char → Bool) : Cursor := (c.run p).2

def skipIndent (c : Cursor) (bound : Nat) : Cursor :=
  c.forward ((c.rest.take (bound - c.column)).takeWhile (· == ' ')).length

/-- Past one line break, which reads as a line feed unless it is a separator of its own. -/
def lineBreak? (c : Cursor) : Option (Char × Cursor) :=
  match c.rest with
  | '\r' :: '\n' :: _ => some ('\n', c.forward 2)
  | ch :: _ =>
    if ch == '\n' || ch == '\r' || ch == '\x85' then some ('\n', c.next)
    else if isBreak ch then some (ch, c.next)
    else none
  | [] => none

def skipLine (c : Cursor) : Cursor := c.skip fun ch => !endsLine ch

def atBoundary (c : Cursor) : Bool :=
  (c.rest.take 3 == ['-', '-', '-'] || c.rest.take 3 == ['.', '.', '.']) && endsWord (c.peek 3)

end Cursor

/-- A step that goes on from a smaller state, or the end of the repetition. -/
inductive Step (σ α : Type)
  | again (s : σ)
  | done (a : α)

/-- Repeats a step while the text left gets shorter. Every step that goes on takes something from
the text, so the repetition ends with `done`. -/
def repeated {σ α : Type} (place : σ → Cursor) (step : σ → Except Error (Step σ α)) (s : σ) :
    Except Error α :=
  match step s with
  | .error e => .error e
  | .ok (.done a) => .ok a
  | .ok (.again t) =>
    if _h : (place t).rest.length < (place s).rest.length then repeated place step t
    else .error .malformed
termination_by (place s).rest.length

end Reconciliation.Yaml
