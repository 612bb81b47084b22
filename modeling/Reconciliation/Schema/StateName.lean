import Reconciliation.Text.Case

/-! # Names in stored state

A payload name in camel case is stored in snake case. Word boundaries are those of ASCII letters
and digits; the letters themselves are lowered whatever their script.
-/
namespace Reconciliation.StateName

/-- Whether a word starts at `c`, between the character before it and the one after it. -/
def startsWord (before c : Char) (after : Option Char) : Bool :=
  c.isUpper &&
    (before.isLower || before.isDigit || (before.isUpper && after.any Char.isLower))

def separated : Option Char → List Char → List Char
  | _, [] => []
  | before, c :: cs =>
    (if before.any fun b => startsWord b c cs.head? then ['_', c] else [c]) ++
      separated (some c) cs

def snakeCase (name : String) : String :=
  let words := separated none name.toList
  Text.lower (String.ofList (words.map fun c => if c = '-' then '_' else c))

end Reconciliation.StateName
