import Reconciliation.Yaml.Error

/-! # Dates

A date is written with dashes, a time behind it with colons. An offset from universal time may
follow a time.
-/
namespace Reconciliation.Yaml

structure TimeOfDay where
  hour : Nat
  minute : Nat
  second : Nat
  offset : Int

structure Date where
  year : Nat
  month : Nat
  day : Nat
  time : Option TimeOfDay

namespace Date

def isLeap (year : Nat) : Bool := year % 4 == 0 && (year % 100 != 0 || year % 400 == 0)

def daysIn (year month : Nat) : Nat :=
  if month = 2 then if isLeap year then 29 else 28
  else if month = 4 ∨ month = 6 ∨ month = 9 ∨ month = 11 then 30
  else 31

/-- Takes between `least` and `most` digits, as many as there are. -/
def number? (least most : Nat) (cs : List Char) : Option (Nat × List Char) :=
  let ds := (cs.take most).takeWhile Char.isDigit
  if least ≤ ds.length then
    some (ds.foldl (fun n d => 10 * n + (d.toNat - '0'.toNat)) 0, cs.drop ds.length)
  else none

def mark? (c : Char) : List Char → Option (List Char)
  | d :: cs => if d = c then some cs else none
  | [] => none

def skipSpace (cs : List Char) : List Char := cs.dropWhile fun c => c == ' ' || c == '\t'

def offset? (cs : List Char) : Option Nat := do
  let (hours, rest) ← number? 1 2 cs
  match rest with
  | [] => some (60 * hours)
  | _ => match ← number? 2 2 (← mark? ':' rest) with
    | (minutes, []) => some (60 * hours + minutes)
    | _ => none

def zone? (cs : List Char) : Option Int :=
  match skipSpace cs with
  | [] => if cs.isEmpty then some 0 else none
  | ['Z'] => some 0
  | '+' :: rest => (offset? rest).map fun n => (n : Int)
  | '-' :: rest => (offset? rest).map fun n => -(n : Int)
  | _ => none

/-- The time after a date. A fraction of a second does not count. -/
def time? (cs : List Char) : Option TimeOfDay := do
  let cs ← match cs with
    | 'T' :: cs => some cs
    | 't' :: cs => some cs
    | ' ' :: _ => some (skipSpace cs)
    | '\t' :: _ => some (skipSpace cs)
    | _ => none
  let (hour, cs) ← number? 1 2 cs
  let (minute, cs) ← number? 2 2 (← mark? ':' cs)
  let (second, cs) ← number? 2 2 (← mark? ':' cs)
  let cs := match cs with
    | '.' :: cs => cs.dropWhile Char.isDigit
    | cs => cs
  (zone? cs).map (⟨hour, minute, second, ·⟩)

def read? (cs : List Char) : Option Date := do
  let (year, rest) ← number? 4 4 cs
  let (month, rest) ← number? 1 2 (← mark? '-' rest)
  let (day, rest) ← number? 1 2 (← mark? '-' rest)
  match rest with
  | [] => some ⟨year, month, day, none⟩
  | _ => (time? rest).map (⟨year, month, day, some ·⟩)

/-- Whether a text is a date without a tag: a date alone has two digits to a part. -/
def isDate (cs : List Char) : Bool :=
  match read? cs with
  | some d => d.time.isSome || cs.length == 10
  | none => false

def faultyParts (d : Date) : List DatePart :=
  let day : List (DatePart × Bool) :=
    [(DatePart.year, d.year == 0),
     (DatePart.month, d.month == 0 || 12 < d.month),
     (DatePart.day, d.day == 0 || daysIn d.year d.month < d.day)]
  let time : List (DatePart × Bool) := d.time.elim [] fun t =>
    [(DatePart.hour, 23 < t.hour), (DatePart.minute, 59 < t.minute),
     (DatePart.second, 59 < t.second)]
  ((day ++ time).filter Prod.snd).map Prod.fst

/-- What is wrong with a date. An offset out of range counts before the parts of the date. -/
def fault? (d : Date) : Option Fault :=
  match d.time with
  | some t =>
    if 1440 ≤ t.offset.natAbs then some (.offsetOutOfRange t.offset)
    else d.faultyParts.head?.map .dateOutOfRange
  | none => d.faultyParts.head?.map .dateOutOfRange

end Date

end Reconciliation.Yaml
