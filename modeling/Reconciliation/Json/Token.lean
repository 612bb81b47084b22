import Reconciliation.Value.Basic

/-! # Tokens of JSON texts

A text is read character by character. Between tokens white space is skipped; a number or word
runs up to the next delimiter; a string ends at its closing quote.
-/
namespace Reconciliation.Json

inductive Token
  | openArray
  | closeArray
  | openObject
  | closeObject
  | comma
  | colon
  | scalar (v : Value)

def isSpace (c : Char) : Bool := c == ' ' || c == '\n' || c == '\t' || c == '\r'

def punctuation? : Char → Option Token
  | '[' => some .openArray
  | ']' => some .closeArray
  | '{' => some .openObject
  | '}' => some .closeObject
  | ',' => some .comma
  | ':' => some .colon
  | _ => none

def numberNames : Numeral.Names := ⟨"NaN", "Infinity"⟩

def words : List (String × Value) :=
  [("null", .null), ("true", .bool true), ("false", .bool false), ("NaN", .float .nan),
   ("Infinity", .float (.infinity false)), ("-Infinity", .float (.infinity true))]

/-- A number without fraction and exponent is an integer. -/
def number (n : Numeral) : Value := if n.isInteger then .int n.toInt else .float n.toBinary64

def atom? (cs : List Char) : Option Value :=
  match words.lookup (String.ofList cs) with
  | some v => some v
  | none => match Numeral.read? cs with
    | some (n, []) => some (number n)
    | _ => none

def unescaped? : Char → Option Char
  | '"' => some '"'
  | '\\' => some '\\'
  | '/' => some '/'
  | 'b' => some '\x08'
  | 'f' => some '\x0c'
  | 'n' => some '\n'
  | 'r' => some '\r'
  | 't' => some '\t'
  | _ => none

def hexValue? (c : Char) : Option Nat :=
  if c.isDigit then some (c.toNat - 48)
  else if 'a' ≤ c ∧ c ≤ 'f' then some (c.toNat - 87)
  else if 'A' ≤ c ∧ c ≤ 'F' then some (c.toNat - 55)
  else none

def codeUnit? (a b c d : Char) : Option Nat := do
  let a ← hexValue? a
  let b ← hexValue? b
  let c ← hexValue? c
  let d ← hexValue? d
  some (((a * 16 + b) * 16 + c) * 16 + d)

def isHighSurrogate (n : Nat) : Bool := 0xD800 ≤ n && n < 0xDC00

def isLowSurrogate (n : Nat) : Bool := 0xDC00 ≤ n && n < 0xE000

/-- The character of a unit. Half of a surrogate pair is no character: the replacement character
stands for it, and what the text said is lost. -/
def unitChar (n : Nat) : Char := if 0xD800 ≤ n ∧ n < 0xE000 then '\ufffd' else Char.ofNat n

def pairChar (high low : Nat) : Char :=
  Char.ofNat (0x10000 + (high - 0xD800) * 0x400 + (low - 0xDC00))

inductive Piece
  | char (c : Char)
  | unit (n : Nat)

/-- The characters of the pieces: two surrogates in a row are one character. -/
def characters : List Piece → List Char
  | [] => []
  | .char c :: rest => c :: characters rest
  | .unit m :: .unit n :: rest =>
    if isHighSurrogate m && isLowSurrogate n then pairChar m n :: characters rest
    else unitChar m :: characters (.unit n :: rest)
  | .unit n :: rest => unitChar n :: characters rest

/-- The pieces of a string up to its closing quote, and the text after the quote. Control
characters stand in a string only as escapes. -/
def readString : List Char → Option (List Piece × List Char)
  | [] => none
  | '"' :: rest => some ([], rest)
  | '\\' :: 'u' :: a :: b :: c :: d :: rest => do
    let n ← codeUnit? a b c d
    let (pieces, after) ← readString rest
    some (.unit n :: pieces, after)
  | '\\' :: e :: rest => do
    let c ← unescaped? e
    let (pieces, after) ← readString rest
    some (.char c :: pieces, after)
  | c :: rest =>
    if c.toNat < 32 ∨ c = '\\' then none
    else do
      let (pieces, after) ← readString rest
      some (.char c :: pieces, after)

theorem readString_length {cs after : List Char} {pieces : List Piece}
    (h : readString cs = some (pieces, after)) : after.length < cs.length := by
  fun_induction readString cs generalizing pieces after <;>
    simp only [Option.bind_eq_bind, Option.bind_eq_some_iff, Option.some.injEq, Prod.mk.injEq,
      Prod.exists, reduceCtorEq, List.length_cons] at * <;> grind

def isDelimiter (c : Char) : Bool := isSpace c || c == '"' || (punctuation? c).isSome

theorem length_dropWhile_le (p : Char → Bool) (cs : List Char) :
    (cs.dropWhile p).length ≤ cs.length :=
  (List.dropWhile_suffix p).length_le

def tokens? (cs : List Char) : Option (List Token) :=
  match cs with
  | [] => some []
  | c :: rest =>
    if isSpace c then tokens? rest
    else match punctuation? c with
      | some t => (tokens? rest).map (t :: ·)
      | none =>
        if c = '"' then
          match _h : readString rest with
          | some (s, after) =>
            (tokens? after).map (.scalar (.string (String.ofList (characters s))) :: ·)
          | none => none
        else
          match atom? (c :: rest.takeWhile (!isDelimiter ·)) with
          | some v => (tokens? (rest.dropWhile (!isDelimiter ·))).map (.scalar v :: ·)
          | none => none
termination_by cs.length
decreasing_by
  · simp
  · simp
  · have := readString_length _h; simp; omega
  · have := length_dropWhile_le (!isDelimiter ·) rest; simp; omega

end Reconciliation.Json
