import Reconciliation.Merge.Error
import Reconciliation.Value.Hash

/-! # Which elements of two collections belong together

Lists pair their elements by position. Sets pair them by hash: a remote element meets the first
stored element of its hash, and the result holds no two elements of one hash.
-/
namespace Reconciliation.Merge

def remoteItems (property : String) : Value → Except MergeError (List Value)
  | .null => .ok []
  | .array xs => .ok xs
  | v => .error (.notArray property v.shape)

/-- Pairs by position up to the longer list, null standing in where the other one ends. -/
def paired : List Value → List Value → List (Value × Value)
  | [], ys => ys.map fun y => (.null, y)
  | x :: xs, [] => (x, .null) :: paired xs []
  | x :: xs, y :: ys => (x, y) :: paired xs ys

def list (merge : Value → Value → Merged Value) (remote stored : List Value) :
    Merged (List Value) :=
  (paired remote stored).mapM fun pair => merge pair.1 pair.2

structure Hashes where
  remote : Value → UInt32
  stored : Value → UInt32

def storedField (element : Option Schema) (field : String) : String :=
  match element.bind (·.find? field) with
  | some p => p.stateName
  | none => field

/-- Whole elements are hashed unless a correlation key names fields. The fields are read under
payload names remotely and under state names in storage. -/
def hashes (element : Option Schema) (key : List String) : Hashes :=
  if key.isEmpty then ⟨Value.hash, Value.hash⟩
  else ⟨Value.correlationHash key, Value.correlationHash (key.map (storedField element))⟩

def index (hash : Value → UInt32) (stored : List Value) : List (UInt32 × Value) :=
  stored.foldl
    (fun done v => if (done.lookup (hash v)).isSome then done else done ++ [(hash v, v)]) []

/-- Merges the remote elements in order; `seen` holds the hashes of the elements kept so far. An
element whose hash was seen is recorded and dropped. -/
def distinct (property : String) (merge : Value → Value → Merged Value)
    (stored : Value → Value) (seen : List UInt32) : List Value → Merged (List Value)
  | [] => pure []
  | v :: vs => do
    let merged ← merge v (stored v)
    let hash := merged.hash
    if hash ∈ seen then do
      Traced.record (.duplicateSkipped property hash)
      distinct property merge stored seen vs
    else do
      let rest ← distinct property merge stored (hash :: seen) vs
      pure (merged :: rest)

def set (property : String) (h : Hashes) (merge : Value → Value → Merged Value)
    (remote stored : List Value) : Merged (List Value) :=
  let known := index h.stored stored
  distinct property merge (fun v => (known.lookup (h.remote v)).getD .null) [] remote

end Reconciliation.Merge
