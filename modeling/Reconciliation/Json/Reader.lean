import Reconciliation.Json.Token

/-! # Values from JSON texts

Tokens are read one after the other into a stack of containers part way through.
-/
namespace Reconciliation.Json

/-- A container part way through: its items so far, latest first, or its entries so far and the
key of the next one. -/
inductive Frame
  | array (done : List Value)
  | object (done : Entries Value) (key : String)

inductive State
  | value (frames : List Frame)
  | items (frames : List Frame)
  | fields (frames : List Frame)
  | key (frames : List Frame) (done : Entries Value)
  | colon (frames : List Frame) (done : Entries Value) (key : String)
  | after (frames : List Frame) (v : Value)

def State.start (frames : List Frame) : Token → Option State
  | .scalar v => some (.after frames v)
  | .openArray => some (.items frames)
  | .openObject => some (.fields frames)
  | _ => none

def State.next : State → Token → Option State
  | .value frames, t => start frames t
  | .items frames, .closeArray => some (.after frames (.array []))
  | .items frames, t => start (.array [] :: frames) t
  | .fields frames, .closeObject => some (.after frames (.object []))
  | .fields frames, .scalar (.string k) => some (.colon frames [] k)
  | .key frames done, .scalar (.string k) => some (.colon frames done k)
  | .colon frames done k, .colon => some (.value (.object done k :: frames))
  | .after (.array done :: frames) v, .comma => some (.value (.array (v :: done) :: frames))
  | .after (.array done :: frames) v, .closeArray =>
    some (.after frames (.array (v :: done).reverse))
  | .after (.object done k :: frames) v, .comma => some (.key frames (done.set k v))
  | .after (.object done k :: frames) v, .closeObject =>
    some (.after frames (.object (done.set k v)))
  | _, _ => none

def State.run : State → List Token → Option State
  | s, [] => some s
  | s, t :: ts => match s.next t with
    | some s => s.run ts
    | none => none

def value? (ts : List Token) : Option Value :=
  match State.run (.value []) ts with
  | some (.after [] v) => some v
  | _ => none

def malformed : String := "not a well-formed JSON text"

/-- The value of a JSON text. Of several entries with one key the last one counts, in the place of
the first. -/
def read? (text : String) : Option Value := (tokens? text.toList).bind value?

inductive Fault
  | malformed
  | tooManyDigits (e : Numeral.Excess)

def Fault.message : Fault → String
  | malformed => Json.malformed
  | tooManyDigits e => e.message

def excess? (limit : Option Nat) : Token → Option Numeral.Excess
  | .scalar (.int n) => Numeral.excess? limit (Numeral.ofInt n).whole.length
  | _ => none

/-- The value of a JSON text whose integers keep to a limit on their digits. Integers count wherever
they stand in the text, also where a later entry takes their place. -/
def read (text : String) (limit : Option Nat := Numeral.digitLimit) : Except Fault Value :=
  match tokens? text.toList with
  | none => .error .malformed
  | some ts => match value? ts, ts.findSome? (excess? limit) with
    | none, _ => .error .malformed
    | some _, some e => .error (.tooManyDigits e)
    | some v, none => .ok v

end Reconciliation.Json
