import Reconciliation.Proofs.Merge.Events
import Reconciliation.Proofs.Schema.Decision
import Reconciliation.Proofs.State.Reconcile
import Reconciliation.Proofs.Value.Decision

/-! # Payloads compose

A payload is read property by property. So it can be read in parts, and properties that no schema
declares can be left out of it, which takes away their warnings and nothing else. Where properties are
stored under different names, each of them is read as if it were alone, so their order is of no
account either.
-/
namespace Reconciliation

open Log.Event (IsDuplicate)
open Traced (Records)

/-! ## Properties that are left out -/

def Log.Event.staysWith (kept : String → Bool) : Log.Event → Bool
  | .undeclaredProperty name => kept name
  | _ => true

theorem Log.Event.IsDuplicate.stays {e : Log.Event} (h : e.IsDuplicate) (kept : String → Bool) :
    e.staysWith kept = true := by
  obtain ⟨name, hash, rfl⟩ := h
  rfl

theorem Property.update_records (order : ListOrder) (p : Property) (remote stored : Value) :
    Records IsDuplicate (p.update order remote stored) := by
  refine Records.bind (Records.ofExcept _) ?_
  intro a
  cases a with
  | none => exact Records.pure _
  | some r =>
    refine Records.bind (p.coerce_records r stored) ?_
    intro m
    exact Records.pure _

namespace Schema

variable {s : Schema} {order : ListOrder}

section Kept

variable {kept : String → Bool}

theorem filterLog_mergeProperty {name : String} (h : kept name = true) (values : Entries Value)
    (remote : Value) :
    (s.mergeProperty order values name remote).filterLog (Log.Event.staysWith kept) =
      s.mergeProperty order values name remote := by
  apply Traced.filterLog_of_records
  cases hf : s.find? name with
  | none =>
    simp only [mergeProperty, hf]
    refine Records.bind (Records.record h) ?_
    intro _
    exact Records.pure _
  | some p =>
    by_cases hr : p.stateName ∈ reservedNames
    · rw [mergeProperty_reserved hf hr]
      exact Records.pure _
    · rw [mergeProperty_declared hf hr, map_eq_pure_bind]
      refine Records.bind ?_ ?_
      · intro e he
        exact (p.update_records order remote _ e he).stays kept
      · intro u
        exact Records.pure _

theorem filterLog_undeclared {name : String} (h : kept name = false) (hf : s.find? name = none)
    (values : Entries Value) (remote : Value) :
    (s.mergeProperty order values name remote).filterLog (Log.Event.staysWith kept) =
      pure values := by
  have hwarning : [Log.Event.undeclaredProperty name].filter (Log.Event.staysWith kept) = [] := by
    rw [List.filter_cons_of_neg]
    · rfl
    · rw [Log.Event.staysWith, h]
      exact Bool.false_ne_true
  simp only [mergeProperty, hf, Traced.filterLog_bind]
  rw [Traced.record, Traced.filterLog, hwarning]
  rfl

/-- Leaving out properties that are not declared takes away their warnings, and nothing else. -/
theorem mergeEntries_filter (h : ∀ name, kept name = false → s.find? name = none)
    (es : List (String × Value)) (values : Entries Value) :
    s.mergeEntries order (es.filter fun e => kept e.1) values =
      (s.mergeEntries order es values).filterLog (Log.Event.staysWith kept) := by
  induction es generalizing values with
  | nil => rfl
  | cons e es ih =>
    obtain ⟨name, remote⟩ := e
    by_cases hk : kept name = true
    · rw [List.filter_cons_of_pos (by exact hk), mergeEntries, mergeEntries, Traced.filterLog_bind,
        filterLog_mergeProperty hk]
      exact congrArg _ (funext ih)
    · have hk := eq_false_of_ne_true hk
      rw [List.filter_cons_of_neg (by simp [hk]), mergeEntries, Traced.filterLog_bind,
        filterLog_undeclared hk (h name hk), Traced.pure_bind]
      exact ih values

end Kept

/-! ## Properties in another order -/

def Takes (s : Schema) (order : ListOrder) (values : Entries Value) (e : String × Value) : Prop :=
  ∃ merged, (s.mergeProperty order values e.1 e.2).result = .ok merged

/-- Only what is stored under its own name decides whether a property is read. -/
theorem takes_congr {values values' : Entries Value} {e : String × Value}
    (h : ∀ p, s.find? e.1 = some p → values.get? p.stateName = values'.get? p.stateName) :
    s.Takes order values e ↔ s.Takes order values' e := by
  rw [Takes, Takes]
  cases hf : s.find? e.1 with
  | none =>
    rw [mergeProperty_undeclared hf, mergeProperty_undeclared hf]
    exact iff_of_true ⟨values, rfl⟩ ⟨values', rfl⟩
  | some p =>
    by_cases hr : p.stateName ∈ reservedNames
    · rw [mergeProperty_reserved hf hr, mergeProperty_reserved hf hr]
      exact iff_of_true ⟨values, rfl⟩ ⟨values', rfl⟩
    · rw [mergeProperty_declared hf hr, mergeProperty_declared hf hr, Value.field, Value.field,
        h p hf, map_eq_pure_bind, map_eq_pure_bind]
      constructor
      · rintro ⟨merged, hm⟩
        obtain ⟨u, hu, -⟩ := Traced.ok_bind.mp hm
        exact ⟨_, Traced.ok_bind.mpr ⟨u, hu, rfl⟩⟩
      · rintro ⟨merged, hm⟩
        obtain ⟨u, hu, -⟩ := Traced.ok_bind.mp hm
        exact ⟨_, Traced.ok_bind.mpr ⟨u, hu, rfl⟩⟩

variable {es fs : List (String × Value)} {values merged merged' : Entries Value}

/-- A payload is read without an error exactly if each of its properties is, whatever the others
do. -/
theorem mergeEntries_ok_iff (hn : (s.properties.map Property.stateName).Nodup)
    (hes : (Entries.keys es).Nodup) :
    (∃ merged, (s.mergeEntries order es values).result = .ok merged) ↔
      ∀ e ∈ es, s.Takes order values e := by
  induction es generalizing values with
  | nil => exact iff_of_true ⟨values, rfl⟩ (by simp)
  | cons e es ih =>
    obtain ⟨hnot, hrest⟩ := List.nodup_cons.mp hes
    rw [List.forall_mem_cons]
    -- The first property leaves alone what the others read.
    have hothers {next : Entries Value}
        (hnext : (s.mergeProperty order values e.1 e.2).result = .ok next) {f : String × Value}
        (hf : f ∈ es) : s.Takes order next f ↔ s.Takes order values f := by
      apply takes_congr
      intro q hq
      apply mergeProperty_frame hnext
      intro p hp _
      apply stateName_ne hn hp hq
      intro heq
      exact hnot (heq ▸ List.mem_map_of_mem hf)
    constructor
    · rintro ⟨merged, h⟩
      obtain ⟨next, hnext, hmore⟩ := Traced.ok_bind.mp h
      refine ⟨⟨next, hnext⟩, ?_⟩
      intro f hf
      exact (hothers hnext hf).mp ((ih hrest).mp ⟨merged, hmore⟩ f hf)
    · rintro ⟨⟨next, hnext⟩, htakes⟩
      have hlater : ∀ f ∈ es, s.Takes order next f :=
        fun f hf => (hothers hnext hf).mpr (htakes f hf)
      obtain ⟨merged, hmore⟩ := (ih hrest).mpr hlater
      exact ⟨merged, Traced.ok_bind.mpr ⟨next, hnext, hmore⟩⟩

theorem nodup_mergeEntries (hv : values.keys.Nodup)
    (h : (s.mergeEntries order es values).result = .ok merged) : merged.keys.Nodup := by
  have hsame : SameValues values values := ⟨hv, hv, Value.SameTree.refl _⟩
  obtain ⟨_, -, hmerged⟩ := (mergeEntries_related es hsame).result_ok h
  exact hmerged.nodup

theorem get?_of_perm (hn : (s.properties.map Property.stateName).Nodup)
    (hes : (Entries.keys es).Nodup) (hperm : es.Perm fs)
    (h : (s.mergeEntries order es values).result = .ok merged)
    (h' : (s.mergeEntries order fs values).result = .ok merged') (k : String) :
    merged.get? k = merged'.get? k := by
  have hfs : (Entries.keys fs).Nodup := (hperm.map Prod.fst).nodup_iff.mp hes
  by_cases hk : ∃ e ∈ es, ∃ p, s.find? e.1 = some p ∧ p.stateName ∉ reservedNames ∧ p.stateName = k
  · obtain ⟨⟨name, remote⟩, he, p, hp, hr, rfl⟩ := hk
    obtain ⟨u, hu, hget⟩ := mergeEntries_get? hn hes h he hp hr
    obtain ⟨u', hu', hget'⟩ := mergeEntries_get? hn hfs h' (hperm.mem_iff.mp he) hp hr
    obtain rfl := Except.ok.inj (hu.symm.trans hu')
    rw [hget, hget']
  · have hother : ∀ e ∈ es, ∀ p, s.find? e.1 = some p → p.stateName ∉ reservedNames →
        p.stateName ≠ k := by
      intro e he p hp hr heq
      exact hk ⟨e, he, p, hp, hr, heq⟩
    rw [mergeEntries_frame h hother, mergeEntries_frame h' fun e he =>
      hother e (hperm.mem_iff.mpr he)]

/-- In another order a payload fails as well, or leaves the same entries in some order. -/
theorem mergeEntries_perm (hn : (s.properties.map Property.stateName).Nodup)
    (hv : values.keys.Nodup) (hes : (Entries.keys es).Nodup) (hperm : es.Perm fs) :
    Option.Rel List.Perm (s.mergeEntries order es values).result.toOption
      (s.mergeEntries order fs values).result.toOption := by
  have hfs : (Entries.keys fs).Nodup := (hperm.map Prod.fst).nodup_iff.mp hes
  have htakes : (∃ merged, (s.mergeEntries order es values).result = .ok merged) ↔
      ∃ merged, (s.mergeEntries order fs values).result = .ok merged := by
    rw [mergeEntries_ok_iff hn hes, mergeEntries_ok_iff hn hfs]
    exact forall_congr' fun e => imp_congr_left hperm.mem_iff
  cases h : (s.mergeEntries order es values).result with
  | error e =>
    cases h' : (s.mergeEntries order fs values).result with
    | error e' => exact .none
    | ok merged' =>
      obtain ⟨merged, hm⟩ := htakes.mpr ⟨merged', h'⟩
      rw [h] at hm
      cases hm
  | ok merged =>
    obtain ⟨merged', h'⟩ := htakes.mp ⟨merged, h⟩
    rw [h']
    exact .some (Entries.perm_of_get? (nodup_mergeEntries hv h) (nodup_mergeEntries hv h')
      (get?_of_perm hn hes hperm h h'))

/-- Payloads compose. Two parts of a payload can be read one after the other. Properties that are not
declared can be left out: what is read stays the same, error or values, and of the events only their
warnings are gone. Where all state names are different, a payload in another order fails as well or
leaves the same values, at most in another order. -/
theorem reconcile_composes (s : Schema) (order : ListOrder) (values : Entries Value) :
    (∀ es fs, s.reconcile order (.object (es ++ fs)) values =
      s.reconcile order (.object es) values >>= fun next =>
        s.reconcile order (.object fs) next) ∧
    (∀ (kept : String → Bool) (es : List (String × Value)),
      (∀ name, kept name = false → s.find? name = none) →
        s.reconcile order (.object (es.filter fun e => kept e.1)) values =
          (s.reconcile order (.object es) values).filterLog (Log.Event.staysWith kept)) ∧
    ((s.properties.map Property.stateName).Nodup → values.keys.Nodup → ∀ es fs,
      (Entries.keys es).Nodup → es.Perm fs →
        Option.Rel List.Perm (s.reconcile order (.object es) values).result.toOption
          (s.reconcile order (.object fs) values).result.toOption) := by
  refine ⟨?_, ?_, ?_⟩
  · intro es fs
    exact mergeEntries_append es fs values
  · intro kept es h
    exact mergeEntries_filter h es values
  · intro hn hv es fs hes hperm
    exact mergeEntries_perm hn hv hes hperm

/-! ## A payload of a server -/

def serverSchema : Schema :=
  ⟨[{ name := "bootZones", kind := .list, ignoreOrder := true, itemKind := some .string },
    { name := "port", kind := .integer }, { name := "hostName", kind := .string },
    { name := "passphrase", kind := .string, writeOnly := true }], false⟩

def storedServer : Entries Value :=
  [("boot_zones", .array [.string "a", .string "b"]), ("passphrase", .string "kept")]

/-- The owner is not declared. -/
def serverPayload : List (String × Value) :=
  [("port", .float (.nearest 80)), ("owner", .string "x"),
    ("bootZones", .array [.string "b", .string "a"]), ("passphrase", .string "sent"),
    ("hostName", .string "h")]

def mergedServer : Entries Value := storedServer ++ [("port", .int 80), ("host_name", .string "h")]

/-- The payload in two parts, without its owner, and backwards. -/
theorem serverPayload_composes :
    (serverSchema.reconcile .stored (.object (serverPayload.take 2)) storedServer >>= fun next =>
      serverSchema.reconcile .stored (.object (serverPayload.drop 2)) next).result =
        .ok mergedServer ∧
    serverSchema.reconcile .stored (.object (serverPayload.filter fun e => e.1 != "owner"))
      storedServer = pure mergedServer ∧
    ∃ merged, (serverSchema.reconcile .stored (.object serverPayload.reverse) storedServer).result =
      .ok merged ∧ mergedServer.Perm merged := by
  obtain ⟨hsplit, hfilter, hperm⟩ := reconcile_composes serverSchema .stored storedServer
  have hread : serverSchema.reconcile .stored (.object serverPayload) storedServer =
      ⟨[.undeclaredProperty "owner"], .ok mergedServer⟩ := by
    have hlog : (serverSchema.reconcile .stored (.object serverPayload) storedServer).log =
        [.undeclaredProperty "owner"] := by decide +kernel
    have hresult : (serverSchema.reconcile .stored (.object serverPayload) storedServer).result =
        .ok mergedServer := by decide +kernel
    rw [← hlog, ← hresult]
  refine ⟨?_, ?_, ?_⟩
  · rw [← hsplit, List.take_append_drop, hread]
  · rw [hfilter (fun name => name != "owner") serverPayload, hread]
    · rfl
    · intro name hname
      obtain rfl : name = "owner" := by simpa using hname
      rfl
  · have hrel := hperm (by decide +kernel) (by decide) serverPayload serverPayload.reverse
      (by decide) (List.reverse_perm _).symm
    rw [hread] at hrel
    cases hreverse : (serverSchema.reconcile .stored (.object serverPayload.reverse)
        storedServer).result with
    | error e =>
      rw [hreverse] at hrel
      cases hrel
    | ok merged =>
      rw [hreverse] at hrel
      exact ⟨merged, rfl, Option.rel_some_some.mp hrel⟩

end Schema

end Reconciliation
