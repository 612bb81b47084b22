import Reconciliation.Number.Arithmetic
import Reconciliation.Number.Numeral

/-! # Deadlines -/
namespace Reconciliation

-- Powers are those of the core library, also where a module imports others.
attribute [local instance (10000)] instPowNat

inductive Seconds
  | whole (n : Int)
  | fractional (x : Binary64)
deriving DecidableEq

namespace Seconds

def text : Seconds → String
  | whole n => String.ofList (Numeral.ofInt n).text
  | fractional x => String.ofList (x.text ⟨"nan", "inf"⟩)

def nanoseconds : Int := 10 ^ (9 : Nat)

/-- The number of nanoseconds at which clocks end. -/
def clockLimit : Int := 2 ^ (63 : Nat)

def isEndless : Seconds → Bool
  | whole n => clockLimit ≤ n * nanoseconds
  | fractional x => match x.mul (.nearest nanoseconds) with
    | .infinity negative => !negative
    | y => y.truncated?.any (clockLimit ≤ ·)

end Seconds

/-- How an operation goes while a deadline watches it. -/
inductive Watched (ε α : Type)
  /-- It is not done in time. -/
  | late
  /-- It gives up because something it waits for is late. -/
  | waitedTooLong
  | done (result : Except ε α)

/-- How far an operation gets while a deadline watches it. -/
inductive Pace
  | inTime
  | late
  | waitedTooLong

def Pace.watched {ε α : Type} (pace : Pace) (result : Except ε α) : Watched ε α :=
  match pace with
  | inTime => .done result
  | late => .late
  | waitedTooLong => .waitedTooLong

structure Deadline where
  resource : String
  label : String
  timeout : Seconds

inductive DeadlineError
  | exceeded (deadline : Deadline)
  /-- No clock can tell when the deadline passes. -/
  | endless

def DeadlineError.message : DeadlineError → String
  | exceeded d =>
    "context deadline exceeded: '" ++ d.resource ++ "' " ++ d.label ++ " timeout is " ++
      d.timeout.text ++ "s"
  | endless => "timestamp too large to convert to C _PyTime_t"

/-- What comes of an operation with a deadline. Only an operation that is late needs a clock. -/
def Deadline.apply {ε α : Type} (d : Deadline) : Watched ε α → Except (DeadlineError ⊕ ε) α
  | .late => .error (.inl (if d.timeout.isEndless then .endless else .exceeded d))
  | .waitedTooLong => .error (.inl (.exceeded d))
  | .done (.error e) => .error (.inr e)
  | .done (.ok a) => .ok a

end Reconciliation
