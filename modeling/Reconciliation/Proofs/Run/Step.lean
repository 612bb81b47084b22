import Reconciliation.Proofs.State.File
import Reconciliation.Proofs.State.Reconcile
import Reconciliation.Run.Execution

/-! # One run

A run that succeeds has loaded its input, merged the payload in memory and stored the result. The
merge in memory does not read the order of stored entries.
-/
namespace Reconciliation

open Value (keysDistinct digitsWithin)
open Traced (Related)

/-! ## The merge in memory -/

/-- Two states that differ only in the order of entries. -/
structure ResourceState.Same (a b : ResourceState) : Prop where
  identifier : a.identifier = b.identifier
  values : Schema.SameValues a.values b.values

namespace ResourceState

theorem Same.refl {a : ResourceState} (h : a.values.keys.Nodup) : Same a a :=
  ⟨rfl, h, h, Value.SameTree.refl _⟩

theorem Same.trans {a b c : ResourceState} (h : Same a b) (k : Same b c) : Same a c :=
  ⟨h.identifier.trans k.identifier, h.values.nodup, k.values.nodup',
    h.values.tree.trans k.values.tree⟩

theorem nodup_of_keysDistinct {a : ResourceState} (h : keysDistinct (.object a.values) = true) :
    a.values.keys.Nodup := (Value.keysDistinct_object.mp h).1

theorem same_ordered {a : ResourceState} (h : a.values.keys.Nodup) : Same a.ordered a where
  identifier := rfl
  values :=
    { nodup := Entries.nodup_sorted (by simpa using h)
      nodup' := h
      tree := a.sameTree_ordered }

end ResourceState

namespace RunInput

open ResourceState (Same)

variable {settings : Settings} {schema : Schema} {payload : Entries Value}

theorem values_identified {input : RunInput} {state state' : ResourceState}
    (h : (input.identified state).result = .ok state') : state'.values = state.values := by
  rw [identified] at h
  split at h
  · obtain ⟨id, -, h⟩ := Traced.ok_bind.mp h
    obtain ⟨-, -, h⟩ := Traced.ok_bind.mp h
    rw [← Except.ok.inj h]
  · split at h
    · obtain ⟨-, -, h⟩ := Traced.ok_bind.mp h
      rw [Except.ok.inj h]
    · cases h

theorem ok_merged {input : RunInput} {dataSource : Bool} {state : ResourceState}
    (h : (input.merged dataSource).result = .ok state) :
    (input.schema.mergeEntries (input.order dataSource) input.payload input.prior.values).result =
        .ok state.values ∧
      (input.identified ⟨input.prior.identifier, state.values⟩).result = .ok state := by
  obtain ⟨next, hnext, hid⟩ := Traced.ok_bind.mp h
  obtain ⟨values, hvalues, hnext⟩ := Traced.ok_bind.mp hnext
  obtain rfl := Except.ok.inj hnext
  have hv := values_identified hid
  rw [hv]
  exact ⟨Traced.ok_mapError.mp hvalues, hid⟩

/-- Without an identifier in the payload the one there is stays, if none is required. -/
theorem merged_of_missing {input : RunInput} {dataSource : Bool} {values : Entries Value}
    {e : ReadError} (he : input.schema.extractIdentifier input.payload = .error e)
    (hm : e.isMissing = true) (hr : input.settings.requireIdentifier = false)
    (h : (input.schema.mergeEntries (input.order dataSource) input.payload
      input.prior.values).result = .ok values) :
    (input.merged dataSource).result = .ok ⟨input.prior.identifier, values⟩ := by
  have hupdate : (input.prior.update input.schema (input.order dataSource)
      (.object input.payload)).result = .ok ⟨input.prior.identifier, values⟩ :=
    Traced.ok_bind.mpr ⟨values, Traced.ok_mapError.mpr h, rfl⟩
  refine Traced.ok_bind.mpr ⟨_, hupdate, ?_⟩
  rw [identified, he]
  dsimp only
  rw [hm, hr, if_pos (by rfl)]
  exact Traced.ok_bind.mpr ⟨(), rfl, rfl⟩

theorem everywhere_merged {test : Value → Bool} (ht : Value.Inherited test) {input : RunInput}
    {dataSource : Bool} {state : ResourceState}
    (hp : Value.everywhere test (.object input.payload) = true)
    (hk : keysDistinct (.object input.prior.values) = true)
    (hs : Value.everywhere test (.object input.prior.values) = true)
    (h : (input.merged dataSource).result = .ok state) :
    Value.everywhere test (.object state.values) = true := by
  obtain ⟨hnodup, hvalues⟩ := Schema.mergeEntries_everywhere ht (Value.everywhere_object.mp hp).2
    (Value.keysDistinct_object.mp hk).1 (Value.everywhere_object.mp hs).2 (ok_merged h).1
  exact Value.everywhere_object.mpr ⟨ht.object _ hnodup, hvalues⟩

/-- Merging what was loaded repeats no key and makes no integer of many digits, so what is stored can
be loaded. -/
theorem merged_of_loaded {t : FileTree} {remote stored : Path} {input : RunInput}
    (hp : Payload.load t remote = .ok input.payload)
    (hs : ResourceState.load t stored = .ok input.prior) {dataSource : Bool} {state : ResourceState}
    (h : (input.merged dataSource).result = .ok state) :
    keysDistinct (.object state.values) = true ∧
      digitsWithin Numeral.digitLimit (.object state.values) = true :=
  have hk := ResourceState.keysDistinct_load hs
  ⟨everywhere_merged Value.inherited_ownKeysDistinct (Payload.keysDistinct_load hp) hk hk h,
    everywhere_merged Value.inherited_ownDigitsWithin (Payload.digitsWithin_load hp) hk
      (ResourceState.digitsWithin_load hs) h⟩

@[simp] theorem result_read_inTime {input : RunInput} {r : RunRequest} :
    (input.read r .inTime).result = (input.merged r.dataSource).result.mapError .read := by
  simp only [read, Pace.watched]
  cases (input.merged r.dataSource).result with
  | ok state => rfl
  | error e => rfl

@[simp] theorem result_read_late {input : RunInput} {r : RunRequest} :
    (input.read r .late).result = .error (.deadline
      (if (input.deadline r).timeout.isEndless then .endless
        else .exceeded (input.deadline r))) := rfl

@[simp] theorem result_read_waitedTooLong {input : RunInput} {r : RunRequest} :
    (input.read r .waitedTooLong).result = .error (.deadline (.exceeded (input.deadline r))) := rfl

end RunInput

/-! ## The run -/

namespace RunRequest

def changedNames (input : RunInput) (state : ResourceState) : List String :=
  ((input.changes state).filter PropertyChange.isChange).map PropertyChange.stateName

theorem ok_read {input : RunInput} {r : RunRequest} {pace : Pace} {state : ResourceState} :
    (input.read r pace).result = .ok state ↔
      pace = .inTime ∧ (input.merged r.dataSource).result = .ok state := by
  cases pace with
  | inTime => simp [Traced.except_mapError]
  | late => simp
  | waitedTooLong => simp

section Parts

variable {r : RunRequest} (ho : r.outputPath = Path.ofString r.state) {start : Timestamp}
  {t : FileTree}
include ho

/-- A run back to its state file succeeds if its input is there, the merge succeeds, its result can
be stored and a report can be written. -/
theorem run_of_parts {input : RunInput} {state : ResourceState}
    (hl : RunInput.load t r = .ok input) (hm : (input.merged r.dataSource).result = .ok state)
    (hs : (state.save t (Path.ofString r.state)).result = .ok ())
    (hr : (input.report start (state.save t (Path.ofString r.state)).files r state).result =
      .ok ()) :
    (r.run start t).files =
        (input.report start (state.save t (Path.ofString r.state)).files r state).files ∧
      ∃ o, (r.run start t).outcome.result = .ok o ∧ o.identifier = state.identifier ∧
        o.changed = changedNames input state := by
  have hread := (ok_read (r := r)).mpr ⟨rfl, hm⟩
  have hrun : r.run start t = r.finish start input state
      (state.save t (Path.ofString r.state)).files (input.read r).log := by
    simp only [run, hl, hread, ho, hs]
  rw [hrun, finish]
  refine ⟨rfl, ?_⟩
  rw [hr]
  exact ⟨_, rfl, rfl, rfl⟩

theorem parts_of_run {o : RunOutcome} (h : (r.run start t).outcome.result = .ok o) :
    ∃ input state, RunInput.load t r = .ok input ∧
      (input.merged r.dataSource).result = .ok state ∧
      (state.save t (Path.ofString r.state)).result = .ok () ∧
      (input.report start (state.save t (Path.ofString r.state)).files r state).result =
        .ok () := by
  cases hl : RunInput.load t r with
  | error e =>
    simp only [run, hl] at h
    cases h
  | ok input =>
    cases hm : (input.read r).result with
    | error e =>
      simp only [run, hl, hm] at h
      cases h
    | ok state =>
      cases hs : (state.save t (Path.ofString r.state)).result with
      | error e =>
        simp only [run, hl, hm, ho, hs] at h
        cases h
      | ok _ =>
        refine ⟨input, state, rfl, (ok_read.mp hm).2, hs, ?_⟩
        simp only [run, hl, hm, ho, hs, finish] at h
        cases hr : (input.report start (state.save t (Path.ofString r.state)).files r state).result
        with
        | ok _ => rfl
        | error e =>
          rw [hr] at h
          cases h

end Parts

theorem load_ok {t : FileTree} {r : RunRequest} {input : RunInput} :
    RunInput.load t r = .ok input ↔
      Settings.load t (Path.ofString r.settings) = .ok input.settings ∧
      Schema.read input.settings.schema.text = .ok input.schema ∧
      Payload.load t (Path.ofString r.remote) = .ok input.payload ∧
      ResourceState.load t (Path.ofString r.state) = .ok input.prior := by
  obtain ⟨settings, schema, payload, prior⟩ := input
  rw [RunInput.load]
  constructor
  · intro h
    obtain ⟨_, hset, h⟩ := Traced.except_bind.mp h
    obtain ⟨_, hsch, h⟩ := Traced.except_bind.mp h
    obtain ⟨_, hpay, h⟩ := Traced.except_bind.mp h
    obtain ⟨_, hpri, h⟩ := Traced.except_bind.mp h
    obtain ⟨rfl, rfl, rfl, rfl⟩ := RunInput.mk.inj (Except.ok.inj h)
    exact ⟨Traced.except_mapError.mp hset, Traced.except_mapError.mp hsch,
      Traced.except_mapError.mp hpay, Traced.except_mapError.mp hpri⟩
  · rintro ⟨hset, hsch, hpay, hpri⟩
    refine Traced.except_bind.mpr ⟨_, Traced.except_mapError.mpr hset, ?_⟩
    refine Traced.except_bind.mpr ⟨_, Traced.except_mapError.mpr hsch, ?_⟩
    refine Traced.except_bind.mpr ⟨_, Traced.except_mapError.mpr hpay, ?_⟩
    exact Traced.except_bind.mpr ⟨_, Traced.except_mapError.mpr hpri, rfl⟩

end RunRequest

end Reconciliation
