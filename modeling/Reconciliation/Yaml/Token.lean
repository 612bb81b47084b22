import Reconciliation.Yaml.Cursor

/-! # YAML tokens -/
namespace Reconciliation.Yaml

structure TagText where
  handle : Option String
  suffix : String
deriving DecidableEq

inductive Token
  | streamEnd
  | versionDirective (major : Nat)
  | tagDirective (handle tagPrefix : String)
  | otherDirective
  | documentStart
  | documentEnd
  | blockSequenceStart
  | blockMappingStart
  | blockEnd
  | flowSequenceStart
  | flowSequenceEnd
  | flowMappingStart
  | flowMappingEnd
  | blockEntry
  | flowEntry
  | key
  | value
  | alias (name : String)
  | anchor (name : String)
  | tag (text : TagText)
  /-- The text of a scalar, and whether it is written without quotes or block mark. -/
  | scalar (text : String) (plain : Bool)
deriving DecidableEq

/-- A reading function: what was read, and the place after it. -/
abbrev Read (α : Type) := Cursor → Except Error (α × Cursor)

def expect (ok : Bool) : Except Error Unit := if ok then .ok () else .error .malformed

def isWordChar (c : Char) : Bool := c.isAlphanum || c == '-' || c == '_'

def name : Read String := fun c => do
  let (cs, after) := c.next.run isWordChar
  expect (!cs.isEmpty)
  expect (endsWord after.peek || "?:,]\x7d%@\x60".toList.contains after.peek)
  .ok (String.ofList cs, after)

def hexDigit? (c : Char) : Option Nat :=
  if c.isDigit then some (c.toNat - 48)
  else if 'a' ≤ c ∧ c ≤ 'f' then some (c.toNat - 87)
  else if 'A' ≤ c ∧ c ≤ 'F' then some (c.toNat - 55)
  else none

def hexNumber? (cs : List Char) : Option Nat :=
  cs.foldlM (fun n c => (hexDigit? c).map (16 * n + ·)) 0

def isUriChar (c : Char) : Bool :=
  c.isAlphanum || "-;/?:@&=+$,_.!~*'()[]%".toList.contains c

def percentBytes : List Char → Option (List UInt8 × List Char)
  | '%' :: a :: b :: rest => do
    let n ← hexNumber? [a, b]
    let (bytes, after) ← percentBytes rest
    some (UInt8.ofNat n :: bytes, after)
  | '%' :: _ => none
  | rest => some ([], rest)

theorem percentBytes_length {cs after : List Char} {bytes : List UInt8}
    (h : percentBytes cs = some (bytes, after)) : after.length ≤ cs.length := by
  fun_induction percentBytes cs generalizing bytes after <;>
    simp only [Option.bind_eq_bind, Option.bind_eq_some_iff, Option.some.injEq, Prod.mk.injEq,
      Prod.exists, reduceCtorEq, List.length_cons] at * <;> grind

def uriText (cs : List Char) : Option (List Char) :=
  match cs with
  | [] => some []
  | '%' :: a :: b :: rest =>
    match _h : percentBytes rest with
    | some (bytes, after) => do
      let n ← hexNumber? [a, b]
      let s ← String.fromUTF8? ⟨(UInt8.ofNat n :: bytes).toArray⟩
      (uriText after).map (s.toList ++ ·)
    | none => none
  | c :: rest => if c = '%' then none else (uriText rest).map (c :: ·)
termination_by cs.length
decreasing_by
  · have := percentBytes_length _h; simp; omega
  · simp

def uri : Read String := fun c => do
  let (cs, after) := c.run isUriChar
  expect (!cs.isEmpty)
  match uriText cs with
  | some text => .ok (String.ofList text, after)
  | none => .error .malformed

/-- An exclamation mark before a space, or a name between two of them. -/
def tagHandle : Read String := fun c => do
  expect (c.peek == '!')
  if c.peek 1 == ' ' then .ok ("!", c.next)
  else do
    let (cs, after) := c.next.run isWordChar
    expect (after.peek == '!')
    .ok (String.ofList ('!' :: cs ++ ['!']), after.next)

/-- A tag stands before white space. -/
def tagText : Read TagText := fun c => do
  let (text, after) ← do
    if c.peek 1 == '<' then do
      let (suffix, after) ← uri (c.forward 2)
      expect (after.peek == '>')
      pure (TagText.mk none suffix, after.next)
    else if endsWord (c.peek 1) then pure (TagText.mk none "!", c.next)
    else if (c.next.run fun ch => !endsPart ch).1.contains '!' then do
      let (handle, after) ← tagHandle c
      let (suffix, after) ← uri after
      pure (TagText.mk (some handle) suffix, after)
    else do
      let (suffix, after) ← uri c.next
      pure (TagText.mk (some "!") suffix, after)
  expect (endsPart after.peek)
  .ok (text, after)

def spaces (c : Cursor) : Cursor := c.skip (· == ' ')

def lineEnd (c : Cursor) : Except Error Cursor := do
  let c := spaces c
  let c := if c.peek == '#' then c.skipLine else c
  expect (endsLine c.peek)
  .ok (match c.lineBreak? with
    | some (_, after) => after
    | none => c)

def digits : Read Nat := fun c => do
  let (cs, after) := c.run Char.isDigit
  expect (!cs.isEmpty)
  .ok (cs.foldl (fun n d => 10 * n + (d.toNat - 48)) 0, after)

def directive : Read Token := fun c => do
  let (cs, after) := c.next.run isWordChar
  expect (!cs.isEmpty && endsPart after.peek)
  let (token, after) ← match String.ofList cs with
    | "YAML" => do
      let (major, after) ← digits (spaces after)
      expect (after.peek == '.')
      let (_, after) ← digits after.next
      expect (endsPart after.peek)
      pure (Token.versionDirective major, after)
    | "TAG" => do
      let (handle, after) ← tagHandle (spaces after)
      expect (after.peek == ' ')
      let (tagPrefix, after) ← uri (spaces after)
      expect (endsPart after.peek)
      pure (Token.tagDirective handle tagPrefix, after)
    | _ => pure (Token.otherDirective, after.skipLine)
  .ok (token, ← lineEnd after)

end Reconciliation.Yaml
