import Reconciliation.Proofs.State.Reconcile
import Reconciliation.State.Session

/-! # What a session keeps

No step of a session drops a key or turns a value into null, and no step stores anything but under
the state name of a property that is read. A step that fails changes nothing at all. So a session
of any length keeps all of this, and its identifier is the last one that a step assigned.
-/
namespace Reconciliation

theorem Property.isNull_of_update {order : ListOrder} {p : Property} {remote stored v : Value}
    (h : (p.update order remote stored).result = .ok (some v)) : v.isNull = false := by
  obtain ⟨a, -, h⟩ := Traced.ok_bind.mp h
  cases a with
  | none => cases h
  | some r =>
    obtain ⟨m, -, h⟩ := Traced.ok_bind.mp h
    have hm := Except.ok.inj h
    split at hm
    · cases hm
    · obtain rfl := Option.some.inj hm
      exact eq_false_of_ne_true ‹_›

/-! ## One read -/

namespace Schema

/-- A key under which a read may store something: the state name of a property that is not
write-only. -/
def Writes (s : Schema) (key : String) : Prop :=
  ∃ p ∈ s.properties, p.stateName = key ∧ p.writeOnly = false

instance (s : Schema) : DecidablePred s.Writes := fun key =>
  inferInstanceAs (Decidable (∃ p ∈ s.properties, p.stateName = key ∧ p.writeOnly = false))

/-- What reads keep of the values. Keys stay at their places, with new ones behind them. -/
structure Keeps (s : Schema) (before after : Entries Value) : Prop where
  keys : before.keys <+: after.keys
  nonNull : ∀ k v, before.get? k = some v → v.isNull = false →
    ∃ w, after.get? k = some w ∧ w.isNull = false
  frame : ∀ k, ¬s.Writes k → after.get? k = before.get? k
  reserved : ∀ k ∈ reservedNames, after.get? k = before.get? k

variable {s : Schema} {order : ListOrder} {values values' : Entries Value}

theorem Keeps.refl (s : Schema) (values : Entries Value) : s.Keeps values values where
  keys := List.prefix_rfl
  nonNull _ v hv hnull := ⟨v, hv, hnull⟩
  frame _ _ := rfl
  reserved _ _ := rfl

theorem Keeps.trans {a b c : Entries Value} (h : s.Keeps a b) (k : s.Keeps b c) : s.Keeps a c where
  keys := h.keys.trans k.keys
  nonNull key v hv hnull := by
    obtain ⟨w, hw, hwnull⟩ := h.nonNull key v hv hnull
    exact k.nonNull key w hw hwnull
  frame key hkey := (k.frame key hkey).trans (h.frame key hkey)
  reserved key hkey := (k.reserved key hkey).trans (h.reserved key hkey)

theorem keeps_set {p : Property} (hp : p ∈ s.properties) (hw : p.writeOnly = false)
    (hr : p.stateName ∉ reservedNames) {v : Value} (hv : v.isNull = false) :
    s.Keeps values (values.set p.stateName v) := by
  have hother {k : String} (hk : k ≠ p.stateName) :
      (values.set p.stateName v).get? k = values.get? k := by
    rw [Entries.get?_set, if_neg hk]
  constructor
  · rw [Entries.keys_set]
    split
    · exact List.prefix_rfl
    · exact List.prefix_append _ _
  · intro k w hk hnull
    by_cases hname : k = p.stateName
    · refine ⟨v, ?_, hv⟩
      rw [Entries.get?_set, if_pos hname]
    · exact ⟨w, (hother hname).trans hk, hnull⟩
  · intro k hk
    apply hother
    intro hname
    exact hk ⟨p, hp, hname.symm, hw⟩
  · intro k hk
    apply hother
    intro hname
    exact hr (hname ▸ hk)

theorem updated_writeOnly {p : Property} (hw : p.writeOnly = true) {remote : Value}
    {u : Option Value}
    (h : (p.update order remote (Value.field values p.stateName)).result = .ok u) :
    updated values p.stateName u = values := by
  rcases Property.update_writeOnly hw h with rfl | ⟨rfl, hnull⟩
  · rfl
  · rw [Value.field] at hnull ⊢
    cases hget : values.get? p.stateName with
    | none =>
      rw [hget] at hnull
      cases hnull
    | some v => exact Entries.set_of_get? hget

theorem mergeProperty_keeps {name : String} {remote : Value}
    (h : (s.mergeProperty order values name remote).result = .ok values') :
    s.Keeps values values' := by
  cases hf : s.find? name with
  | none =>
    rw [mergeProperty_undeclared hf] at h
    exact Except.ok.inj h ▸ .refl s values
  | some p =>
    by_cases hr : p.stateName ∈ reservedNames
    · rw [mergeProperty_reserved hf hr] at h
      exact Except.ok.inj h ▸ .refl s values
    · rw [mergeProperty_declared hf hr, map_eq_pure_bind] at h
      obtain ⟨u, hu, h⟩ := Traced.ok_bind.mp h
      rw [← Except.ok.inj h]
      by_cases hw : p.writeOnly = true
      · rw [updated_writeOnly hw hu]
        exact .refl s values
      · cases u with
        | none => exact .refl s values
        | some v =>
          exact keeps_set (find?_spec hf).1 (eq_false_of_ne_true hw) hr
            (Property.isNull_of_update hu)

theorem mergeEntries_keeps {es : List (String × Value)}
    (h : (s.mergeEntries order es values).result = .ok values') : s.Keeps values values' := by
  induction es generalizing values with
  | nil => exact Except.ok.inj h ▸ .refl s values
  | cons e es ih =>
    obtain ⟨next, hnext, h⟩ := Traced.ok_bind.mp h
    exact (mergeProperty_keeps hnext).trans (ih h)

theorem reconcile_keeps {payload : Value}
    (h : (s.reconcile order payload values).result = .ok values') : s.Keeps values values' := by
  cases payload with
  | object es => exact mergeEntries_keeps h
  | _ => cases h

end Schema

/-! ## One step -/

/-- The identifier that a step assigns, if it is a step that does and it succeeds. -/
def Action.assigned? (s : Schema) : Action → Option String
  | .update _ | .updateAsReceived _ => none
  | .assignIdentifier payload => match s.extractIdentifier payload with
    | .ok identifier => some identifier
    | .error _ => none
  | .setIdentifier identifier => some identifier

namespace ResourceState

variable {s : Schema} {state next : ResourceState} {action : Action}

theorem update_keeps {order : ListOrder} {payload : Value}
    (h : (state.update s order payload).result = .ok next) :
    s.Keeps state.values next.values ∧ next.identifier = state.identifier := by
  obtain ⟨values, hvalues, h⟩ := Traced.ok_bind.mp h
  obtain rfl := Except.ok.inj h
  exact ⟨Schema.reconcile_keeps (Traced.ok_mapError.mp hvalues), rfl⟩

theorem result_assignIdentifier (state : ResourceState) (s : Schema) (payload : Entries Value) :
    (state.assignIdentifier s payload).result =
      (s.extractIdentifier payload).map fun identifier =>
        { state with identifier := some identifier } := by
  rw [assignIdentifier, Traced.result_bind, Traced.result_ofExcept]
  cases s.extractIdentifier payload <;> rfl

/-- A step that succeeds keeps the values and assigns its identifier, if it has one. -/
theorem act_keeps (h : (state.act s action).result = .ok next) :
    s.Keeps state.values next.values ∧
      next.identifier = (action.assigned? s).or state.identifier := by
  cases action with
  | update payload => exact update_keeps h
  | updateAsReceived payload => exact update_keeps h
  | assignIdentifier payload =>
    rw [act, result_assignIdentifier] at h
    rw [Action.assigned?]
    cases hid : s.extractIdentifier payload with
    | error e =>
      rw [hid] at h
      cases h
    | ok identifier =>
      rw [hid] at h
      obtain rfl := Except.ok.inj h
      exact ⟨.refl s _, rfl⟩
  | setIdentifier identifier =>
    obtain rfl := Except.ok.inj h
    exact ⟨.refl s _, rfl⟩

theorem after_of_ok (h : (state.act s action).result = .ok next) :
    state.after s action = next := by
  rw [after, h]

theorem after_of_error {e : ReadError} (h : (state.act s action).result = .error e) :
    state.after s action = state := by
  rw [after, h]

theorem assigned?_of_error {e : ReadError} (h : (state.act s action).result = .error e) :
    action.assigned? s = none := by
  cases action with
  | update payload => rfl
  | updateAsReceived payload => rfl
  | assignIdentifier payload =>
    rw [act, result_assignIdentifier] at h
    rw [Action.assigned?]
    cases hid : s.extractIdentifier payload with
    | error e => rfl
    | ok identifier =>
      rw [hid] at h
      cases h
  | setIdentifier identifier => cases h

theorem after_keeps (s : Schema) (state : ResourceState) (action : Action) :
    s.Keeps state.values (state.after s action).values ∧
      (state.after s action).identifier = (action.assigned? s).or state.identifier := by
  cases h : (state.act s action).result with
  | ok next =>
    rw [after_of_ok h]
    exact act_keeps h
  | error e =>
    rw [after_of_error h, assigned?_of_error h]
    exact ⟨.refl s _, rfl⟩

/-! ## Sessions of any length -/

def lastAssigned? (s : Schema) (actions : List Action) : Option String :=
  (actions.filterMap fun action => action.assigned? s).getLast?

theorem lastAssigned?_cons (s : Schema) (action : Action) (actions : List Action)
    (identifier : Option String) :
    (lastAssigned? s (action :: actions)).or identifier =
      (lastAssigned? s actions).or ((action.assigned? s).or identifier) := by
  rw [lastAssigned?, lastAssigned?]
  cases h : action.assigned? s with
  | none =>
    rw [List.filterMap_cons_none h]
    rfl
  | some assigned =>
    rw [List.filterMap_cons_some h, List.getLast?_cons]
    cases (actions.filterMap fun action => action.assigned? s).getLast? <;> rfl

theorem afterAll_keeps (s : Schema) (state : ResourceState) (actions : List Action) :
    s.Keeps state.values (state.afterAll s actions).values := by
  induction actions generalizing state with
  | nil => exact .refl s _
  | cons action actions ih => exact (after_keeps s state action).1.trans (ih _)

theorem identifier_afterAll (s : Schema) (state : ResourceState) (actions : List Action) :
    (state.afterAll s actions).identifier =
      (lastAssigned? s actions).or state.identifier := by
  induction actions generalizing state with
  | nil => rfl
  | cons action actions ih =>
    rw [lastAssigned?_cons, ← (after_keeps s state action).2]
    exact ih _

/-- In every state that a session reaches, each key is still there and no value has become null, only
properties that are read have changed what is stored, and the identifier is the one assigned last. A
step that fails from there leaves the state as it is. -/
theorem session_invariant (s : Schema) (state : ResourceState) (actions : List Action) :
    s.Keeps state.values (state.afterAll s actions).values ∧
      (state.afterAll s actions).identifier =
        (lastAssigned? s actions).or state.identifier ∧
      ∀ action e, ((state.afterAll s actions).act s action).result = .error e →
        (state.afterAll s actions).after s action = state.afterAll s actions := by
  refine ⟨afterAll_keeps s state actions, identifier_afterAll s state actions, ?_⟩
  intro action e h
  exact after_of_error h

/-! ## A session of disks -/

def diskSchema : Schema :=
  ⟨[{ name := "id", kind := .integer }, { name := "sizeInBytes", kind := .integer },
    { name := "passphrase", kind := .string, writeOnly := true }], false⟩

def storedDisk : ResourceState :=
  ⟨some "none", [("id", .string "kept"), ("passphrase", .string "secret"), ("label", .int 3)]⟩

/-- A read of a disk, its identifier, and an identifier that is missing. -/
def diskSession : List Action :=
  [.update (.object [("id", .int 9), ("sizeInBytes", .int 5), ("passphrase", .string "other")]),
    .assignIdentifier [("id", .int 7)], .assignIdentifier [("sizeInBytes", .int 8)]]

def brokenRead : Action :=
  .updateAsReceived (.object [("sizeInBytes", .int 6), ("id", .int 1), ("passphrase", .null),
    ("sizeInBytes", .string "wide")])

theorem session_storedDisk :
    (∀ k ∈ ["id", "passphrase", "label"],
      (storedDisk.afterAll diskSchema diskSession).values.get? k = storedDisk.values.get? k) ∧
    (storedDisk.afterAll diskSchema diskSession).identifier = some "7" ∧
    (storedDisk.afterAll diskSchema diskSession).after diskSchema brokenRead =
      storedDisk.afterAll diskSchema diskSession := by
  obtain ⟨hkeeps, hidentifier, hfails⟩ := session_invariant diskSchema storedDisk diskSession
  have hlast : lastAssigned? diskSchema diskSession = some "7" := by decide +kernel
  have hunwritten : ∀ k ∈ ["id", "passphrase", "label"],
      k ∈ Schema.reservedNames ∨ ¬diskSchema.Writes k := by decide +kernel
  have hbroken : ((storedDisk.afterAll diskSchema diskSession).act diskSchema brokenRead).error? =
      some (.merge (.notScalar "sizeInBytes" .integer "str")) := by decide +kernel
  refine ⟨?_, ?_, ?_⟩
  · intro k hk
    rcases hunwritten k hk with hreserved | hwrites
    · exact hkeeps.reserved k hreserved
    · exact hkeeps.frame k hwrites
  · rw [hidentifier, hlast]
    rfl
  · exact hfails brokenRead _ (Traced.error?_eq_some_iff.mp hbroken)

end ResourceState

end Reconciliation
