import Reconciliation.Yaml.Token

/-! # Scalars in quotes -/
namespace Reconciliation.Yaml.Quoted

def escapes : List (Char × Char) :=
  [('0', '\x00'), ('a', '\x07'), ('b', '\x08'), ('t', '\t'), ('\t', '\t'), ('n', '\n'),
   ('v', '\x0b'), ('f', '\x0c'), ('r', '\r'), ('e', '\x1b'), (' ', ' '), ('"', '"'),
   ('\\', '\\'), ('/', '/'), ('N', '\x85'), ('_', '\xa0'), ('L', '\u2028'), ('P', '\u2029')]

def codeLength? : Char → Option Nat
  | 'x' => some 2
  | 'u' => some 4
  | 'U' => some 8
  | _ => none

def blankLines (c : Cursor) : Except Error (List Char × Cursor) :=
  repeated (fun s : List Char × Cursor => s.2) (fun (done, c) => do
    expect (!c.atBoundary)
    let c := c.skip fun ch => ch == ' ' || ch == '\t'
    match c.lineBreak? with
    | some (b, after) => .ok (.again (done ++ [b], after))
    | none => .ok (.done (done, c))) ([], c)

/-- A line break and the blank lines after it: a single break is a space, and further ones stand
for themselves. -/
def folded (first : Char) (blank : List Char) : List Char :=
  (if first ≠ '\n' then [first] else if blank.isEmpty then [' '] else []) ++ blank

/-- The character of a code. Half of a surrogate pair is no character: the replacement character
stands for it, and what the text said is lost. -/
def codeChar (code : Nat) : Char :=
  if 0xD800 ≤ code ∧ code < 0xE000 then '\ufffd' else Char.ofNat code

def escape : Read (List Char) := fun c => do
  let c := c.next
  match escapes.lookup c.peek with
  | some ch => .ok ([ch], c.next)
  | none => match codeLength? c.peek with
    | some n =>
      let ds := c.next.rest.take n
      match if ds.length = n then hexNumber? ds else none with
      | some code =>
        if code < 0x110000 then .ok ([codeChar code], c.next.forward n)
        else .error (.fault (.notCharacter code))
      | none => .error .malformed
    | none => match c.lineBreak? with
      | some (_, after) => blankLines after
      | none => .error .malformed

def piece (double : Bool) : Read (List Char) := fun c =>
  if c.peek == ' ' || c.peek == '\t' then do
    let (space, after) := c.run fun ch => ch == ' ' || ch == '\t'
    match after.lineBreak? with
    | some (b, after) => do
      let (blank, after) ← blankLines after
      .ok (folded b blank, after)
    | none => do
      expect (after.peek != stop)
      .ok (space, after)
  else match c.lineBreak? with
    | some (b, after) => do
      let (blank, after) ← blankLines after
      .ok (folded b blank, after)
    | none =>
      if !double && c.peek == '\'' then .ok (['\''], c.forward 2)
      else if double && c.peek == '\\' then escape c
      else do
        expect (c.peek != stop)
        .ok ([c.peek], c.next)

def atEnd (double : Bool) (c : Cursor) : Bool :=
  if double then c.peek == '"' else c.peek == '\'' && c.peek 1 != '\''

def text (double : Bool) : Read String := fun c =>
  repeated (fun s : List Char × Cursor => s.2) (fun (done, c) =>
    if atEnd double c then .ok (.done (String.ofList done.reverse, c.next))
    else do
      let (cs, after) ← piece double c
      .ok (.again (cs.reverse ++ done, after))) ([], c.next)

end Reconciliation.Yaml.Quoted
