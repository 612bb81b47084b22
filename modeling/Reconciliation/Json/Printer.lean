import Reconciliation.Json.Token

/-! # JSON texts of values -/
namespace Reconciliation.Json

structure Style where
  sorted : Bool
  lines : Bool

def hexChar (n : Nat) : Char := Nat.digitChar n

/-- Quotes, backslashes and control characters are escaped, and nothing else. -/
def escaped (c : Char) : List Char :=
  match c with
  | '"' => ['\\', '"']
  | '\\' => ['\\', '\\']
  | '\n' => ['\\', 'n']
  | '\r' => ['\\', 'r']
  | '\t' => ['\\', 't']
  | '\x0c' => ['\\', 'f']
  | '\x08' => ['\\', 'b']
  | c =>
    if c.toNat < 32 then ['\\', 'u', '0', '0', hexChar (c.toNat / 16), hexChar (c.toNat % 16)]
    else [c]

def quoted (s : String) : List Char := '"' :: s.toList.flatMap escaped ++ ['"']

def scalarText : Value → List Char
  | .null => "null".toList
  | .bool true => "true".toList
  | .bool false => "false".toList
  | .int n => (Numeral.ofInt n).text
  | .float x => x.text numberNames
  | .string s => quoted s
  | _ => []

def Style.break (style : Style) (depth : Nat) : List Char :=
  if style.lines then '\n' :: List.replicate (2 * depth) ' ' else []

def Style.colon (style : Style) : List Char := if style.lines then [':', ' '] else [':']

/-- Parts between two marks, each on its line; without parts the marks stand together. -/
def Style.enclosed (style : Style) (depth : Nat) (first last : Char) (parts : List (List Char)) :
    List Char :=
  match parts with
  | [] => [first, last]
  | part :: rest =>
    first :: style.break (depth + 1) ++ part ++
      rest.flatMap (fun p => ',' :: style.break (depth + 1) ++ p) ++ style.break depth ++ [last]

def Style.entryTexts (style : Style) (texts : Entries (List Char)) : List (List Char) :=
  (if style.sorted then texts.sorted else texts).map fun e => quoted e.1 ++ style.colon ++ e.2

mutual

def Style.text (style : Style) (depth : Nat) : Value → List Char
  | .array xs => style.enclosed depth '[' ']' (style.itemTexts (depth + 1) xs)
  | .object es =>
    style.enclosed depth '{' '}' (style.entryTexts (style.fieldTexts (depth + 1) es))
  | v => scalarText v

def Style.itemTexts (style : Style) (depth : Nat) : List Value → List (List Char)
  | [] => []
  | x :: xs => style.text depth x :: style.itemTexts depth xs

def Style.fieldTexts (style : Style) (depth : Nat) : List (String × Value) → Entries (List Char)
  | [] => []
  | (k, v) :: es => (k, style.text depth v) :: style.fieldTexts depth es

end

def Style.print (style : Style) (v : Value) : String := String.ofList (style.text 0 v)

end Reconciliation.Json
