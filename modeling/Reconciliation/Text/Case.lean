import Reconciliation.Text.CaseRanges

/-! # Letter case -/
namespace Reconciliation.Text

/-- The small form of a letter, apart from sigma: a capital dotted I becomes two characters. -/
def smallForm (c : Char) : List Char :=
  if c.toNat < 128 then [c.toLower]
  else if c.toNat = 0x130 then ['i', Char.ofNat 0x307]
  else match capitalRanges.find? (·.contains c.toNat) with
    | some r => [Char.ofNat (c.toNat + r.shift).toNat]
    | none => [c]

def nextToLetter (cs : List Char) : Bool :=
  match cs.dropWhile (within passedOverRanges) with
  | c :: _ => within casedRanges c
  | [] => false

/-- A sigma that ends a word has a form of its own. -/
def smallSigma (before after : List Char) : Char :=
  if nextToLetter before && !nextToLetter after then 'ς' else 'σ'

/-- Small letters throughout; `before` holds the characters already passed, latest first. -/
def lowerFrom (before : List Char) : List Char → List Char
  | [] => []
  | c :: cs =>
    (if c = 'Σ' then [smallSigma before cs] else smallForm c) ++ lowerFrom (c :: before) cs

def lower (s : String) : String := String.ofList (lowerFrom [] s.toList)

/-- The capital of a letter whose capital is an ASCII letter; the dotless i is one of them. -/
def capital (c : Char) : Char :=
  if c = 'ı' then 'I' else if c = 'ſ' then 'S' else c.toUpper

def upper (s : String) : String := String.ofList (s.toList.map capital)

end Reconciliation.Text
