/-! # Points in time -/
namespace Reconciliation

structure Timestamp where
  year : Nat
  month : Nat
  day : Nat
  hour : Nat
  minute : Nat
  second : Nat
  microsecond : Nat
deriving DecidableEq

namespace Timestamp

def padded (width n : Nat) : String :=
  let ds := Nat.toDigits 10 n
  String.ofList (List.replicate (width - ds.length) '0' ++ ds)

def fraction (t : Timestamp) : String :=
  if t.microsecond = 0 then "" else "." ++ padded 6 t.microsecond

/-- Date and time, with a fraction of a second only if there is one, and the offset of universal
time. -/
def text (t : Timestamp) : String :=
  padded 4 t.year ++ "-" ++ padded 2 t.month ++ "-" ++ padded 2 t.day ++ "T" ++
    padded 2 t.hour ++ ":" ++ padded 2 t.minute ++ ":" ++ padded 2 t.second ++ t.fraction ++
    "+00:00"

/-- Year, month and day of the day that comes so many days after the start of 1970. Years are
counted from March, so that a leap day ends its year. -/
def civil (days : Nat) : Nat × Nat × Nat :=
  let shifted := days + 719468
  let day := shifted % 146097
  let year := (day - day / 1460 + day / 36524 - day / 146096) / 365
  let dayOfYear := day - (365 * year + year / 4 - year / 100)
  let month := (5 * dayOfYear + 2) / 153
  let year := year + shifted / 146097 * 400
  (if month < 10 then year else year + 1, if month < 10 then month + 3 else month - 9,
    dayOfYear - (153 * month + 2) / 5 + 1)

def ofMicroseconds (n : Nat) : Timestamp :=
  let seconds := n / 1000000
  let (year, month, day) := civil (seconds / 86400)
  let rest := seconds % 86400
  ⟨year, month, day, rest / 3600, rest / 60 % 60, rest % 60, n % 1000000⟩

end Timestamp

end Reconciliation
