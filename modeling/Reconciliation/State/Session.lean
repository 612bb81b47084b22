import Reconciliation.State.Changes
import Reconciliation.State.Identifier

/-! # Sessions

A session applies reads to one resource state. A step that fails leaves the state as it was.
-/
namespace Reconciliation

inductive Action
  /-- A read whose lists keep their stored order. -/
  | update (payload : Value)
  /-- A read whose lists are stored as received. -/
  | updateAsReceived (payload : Value)
  | assignIdentifier (payload : Entries Value)
  | setIdentifier (identifier : String)

namespace ResourceState

def update (state : ResourceState) (s : Schema) (order : ListOrder) (payload : Value) :
    Traced ReadError ResourceState := do
  let values ← (s.reconcile order payload state.values).mapError .merge
  pure { state with values := values }

def act (state : ResourceState) (s : Schema) : Action → Traced ReadError ResourceState
  | .update payload => state.update s .stored payload
  | .updateAsReceived payload => state.update s .received payload
  | .assignIdentifier payload => state.assignIdentifier s payload
  | .setIdentifier identifier => pure { state with identifier := some identifier }

def after (state : ResourceState) (s : Schema) (action : Action) : ResourceState :=
  match (state.act s action).result with
  | .ok next => next
  | .error _ => state

def afterAll (state : ResourceState) (s : Schema) (actions : List Action) : ResourceState :=
  actions.foldl (fun state action => state.after s action) state

end ResourceState

end Reconciliation
