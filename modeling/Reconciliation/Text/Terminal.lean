/-! # Control sequences of terminals

A sequence is an escape character, a bracket, parameters and a letter. What is printed for
programs to read has none.
-/
namespace Reconciliation.Text

def isParameter (c : Char) : Bool := c.isDigit || c == ';' || c == '?'

/-- The number of characters of the control sequence that a text starts with, if there is one. -/
def sequenceLength : List Char → Nat
  | '\x1b' :: '[' :: cs =>
    let parameters := cs.takeWhile isParameter
    match cs.drop parameters.length with
    | c :: _ => if c.isAlpha then parameters.length + 3 else 0
    | [] => 0
  | _ => 0

/-- A text without its control sequences, and without so many characters in front. -/
def dropSequences : Nat → List Char → List Char
  | _, [] => []
  | n + 1, _ :: cs => dropSequences n cs
  | 0, c :: cs => match sequenceLength (c :: cs) with
    | 0 => c :: dropSequences 0 cs
    | n + 1 => dropSequences n cs

def withoutSequences (s : String) : String := String.ofList (dropSequences 0 s.toList)

end Reconciliation.Text
