import Reconciliation.Text.InvisibleRanges

/-! # Texts in quotes, as messages show them -/
namespace Reconciliation.Text

/-- Whether a character is shown by its code. The space is shown as it is. -/
def isInvisible (c : Char) : Bool :=
  let n := c.toNat
  n < 32 || (127 ≤ n && invisibleRanges.any fun r => r.1 ≤ n && n ≤ r.2)

def hexDigits (width n : Nat) : List Char :=
  let ds := Nat.toDigits 16 n
  List.replicate (width - ds.length) '0' ++ ds

def literalChar (quote c : Char) : List Char :=
  if c = quote ∨ c = '\\' then ['\\', c]
  else if c = '\n' then ['\\', 'n']
  else if c = '\r' then ['\\', 'r']
  else if c = '\t' then ['\\', 't']
  else if isInvisible c then
    let n := c.toNat
    if n < 0x100 then '\\' :: 'x' :: hexDigits 2 n
    else if n < 0x10000 then '\\' :: 'u' :: hexDigits 4 n
    else '\\' :: 'U' :: hexDigits 8 n
  else [c]

/-- Single quotes, or double quotes around a text with single quotes only. -/
def quoteFor (cs : List Char) : Char :=
  if cs.contains '\'' && !cs.contains '"' then '"' else '\''

def literal (s : String) : String :=
  let quote := quoteFor s.toList
  String.ofList (quote :: s.toList.flatMap (literalChar quote) ++ [quote])

end Reconciliation.Text
