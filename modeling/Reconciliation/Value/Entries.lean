/-! # Keyed entries in order -/
namespace Reconciliation

/-- Entries in the order in which their keys were first written. -/
abbrev Entries (α : Type) := List (String × α)

namespace Entries

variable {α : Type}

def get? (es : Entries α) (key : String) : Option α := es.lookup key

def keys (es : Entries α) : List String := es.map Prod.fst

def has (es : Entries α) (key : String) : Bool := (es.get? key).isSome

/-- Writes a value under a key; a key that is present keeps its place. -/
def set (es : Entries α) (key : String) (value : α) : Entries α :=
  match es with
  | [] => [(key, value)]
  | (k, v) :: rest => if k = key then (k, value) :: rest else (k, v) :: set rest key value

/-- Entries written one after the other, the last writer of a key winning. -/
def ofList (es : List (String × α)) : Entries α :=
  es.foldl (fun done e => done.set e.1 e.2) []

def insertByKey (e : String × α) : Entries α → Entries α
  | [] => [e]
  | f :: rest => if e.1 ≤ f.1 then e :: f :: rest else f :: insertByKey e rest

def sorted (es : Entries α) : Entries α := es.foldr insertByKey []

end Entries

end Reconciliation
