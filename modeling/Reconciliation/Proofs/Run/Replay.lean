import Reconciliation.Proofs.Run.Step
import Reconciliation.Proofs.Settings.Frame

/-! # Runs on one state file refine the merge in memory

Each run loads what the run before it stored. Storing sorts the entries of every object, which no
merge reads, so a sequence of runs leads to the state that merging the payloads in memory leads to.
-/
namespace Reconciliation

open ResourceState (Same)

structure Read where
  remote : String
  dataSource : Bool
  start : Timestamp

def Read.request (x : Read) (settings state : String) : RunRequest :=
  { settings := settings, remote := x.remote, state := state, dataSource := x.dataSource }

structure Sources (t : FileTree) (settingsFile state : String) (reads : List Read)
    (settings : Settings) (schema : Schema) (payloads : List (Entries Value)) : Prop where
  settingsLoad : Settings.load t (Path.ofString settingsFile) = .ok settings
  schemaReads : Schema.read settings.schema.text = .ok schema
  payloadsLoad : List.Forall₂ (fun x es => Payload.load t (Path.ofString x.remote) = .ok es)
    reads payloads
  settingsApart : t.place (Path.ofString settingsFile) ≠ t.place (Path.ofString state)
  schemaApart : ∀ p ∈ settings.schema.path, t.place p ≠ t.place (Path.ofString state)
  payloadsApart : ∀ x ∈ reads, t.place (Path.ofString x.remote) ≠ t.place (Path.ofString state)

theorem Payload.load_frame {t u : FileTree} {stored path : Path} {d : Document}
    (h : FileTree.Holds t u stored d) (hp : t.place path ≠ t.place stored) {es : Entries Value}
    (hl : load t path = .ok es) : load u path = .ok es := by
  unfold load at hl
  split at hl
  · rename_i text htext
    rw [load, h.read_other hp htext]
    exact hl
  · cases hl

theorem Sources.payloads_frame {t u : FileTree} {stored : Path} {d : Document}
    (h : FileTree.Holds t u stored d) {reads : List Read} {payloads : List (Entries Value)}
    (hp : List.Forall₂ (fun x es => Payload.load t (Path.ofString x.remote) = .ok es)
      reads payloads)
    (ha : ∀ x ∈ reads, t.place (Path.ofString x.remote) ≠ t.place stored) :
    List.Forall₂ (fun x es => Payload.load u (Path.ofString x.remote) = .ok es)
      reads payloads := by
  induction hp with
  | nil => exact .nil
  | cons hx _ ih =>
    obtain ⟨hxa, hrest⟩ := List.forall_mem_cons.mp ha
    exact .cons (Payload.load_frame h hxa hx) (ih hrest)

variable {t t' : FileTree} {settingsFile state : String} {settings : Settings} {schema : Schema}

theorem Sources.tail {u : FileTree} {d : Document} {x : Read} {xs : List Read}
    {payload : Entries Value} {payloads : List (Entries Value)}
    (hs : Sources t settingsFile state (x :: xs) settings schema (payload :: payloads))
    (h : FileTree.Holds t u (Path.ofString state) d) :
    Sources u settingsFile state xs settings schema payloads where
  settingsLoad := Settings.load_frame h hs.settingsLoad hs.settingsApart hs.schemaApart
  schemaReads := hs.schemaReads
  payloadsLoad := Sources.payloads_frame h (List.forall₂_cons.mp hs.payloadsLoad).2
    fun y hy => hs.payloadsApart y (List.mem_cons_of_mem _ hy)
  settingsApart := by
    rw [h.place, h.place]
    exact hs.settingsApart
  schemaApart p hp := by
    rw [h.place, h.place]
    exact hs.schemaApart p hp
  payloadsApart y hy := by
    rw [h.place, h.place]
    exact hs.payloadsApart y (List.mem_cons_of_mem _ hy)

end Reconciliation
