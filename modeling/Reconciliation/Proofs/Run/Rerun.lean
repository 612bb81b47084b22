import Reconciliation.Proofs.Report.Again
import Reconciliation.Proofs.Run.Replay
import Reconciliation.Proofs.Run.Surrogates
import Reconciliation.Proofs.Schema.Decision
import Reconciliation.Proofs.State.Again
import Reconciliation.Proofs.Value.Decision

/-! # Running again

A run on a payload that has been read before finds its own result. It stores the same text and
reports no change.
-/
namespace Reconciliation

open Value (keysDistinct nanFree digitsWithin)
open ResourceState (Same)

theorem ResourceState.Same.text {a b : ResourceState} (h : Same a b) : a.text = b.text := by
  have hvalues := h.values.tree
  rw [Value.SameTree, Value.ordered_object, Value.ordered_object, Value.object.injEq] at hvalues
  apply ResourceState.text_of_ordered
  rw [ResourceState.ordered, ResourceState.ordered, h.identifier, hvalues]

namespace RunInput

theorem identified_again {input : RunInput} {identifier : Option String}
    {values values' : Entries Value} {state : ResourceState}
    (h : (input.identified ⟨identifier, values⟩).result = .ok state) :
    (input.identified ⟨state.identifier, values'⟩).result = .ok ⟨state.identifier, values'⟩ := by
  rw [identified] at h ⊢
  split at h
  · obtain ⟨id, hid, h⟩ := Traced.ok_bind.mp h
    obtain ⟨-, -, h⟩ := Traced.ok_bind.mp h
    obtain rfl := Except.ok.inj h
    exact Traced.ok_bind.mpr ⟨id, hid, rfl⟩
  · split at h
    · rename_i hkept
      rw [if_pos hkept]
      exact Traced.ok_bind.mpr ⟨(), rfl, rfl⟩
    · cases h

structure Settled (input : RunInput) : Prop where
  distinct : input.schema.Distinct
  payloadKeys : keysDistinct (.object input.payload) = true
  payloadNumbers : nanFree (.object input.payload) = true
  properties : input.schema.Settled input.payload input.prior.values

/-- Merging into the outcome of a merge leads to the same outcome. -/
theorem merged_again {input : RunInput} (hs : input.Settled)
    (ho : input.settings.ignoreListOrder = true) {state : ResourceState}
    (h : (input.merged false).result = .ok state) {stored : ResourceState}
    (hsame : Same stored state) :
    ∃ next, (RunInput.merged { input with prior := stored } false).result = .ok next ∧
      Same next state := by
  obtain ⟨hvalues, hid⟩ := ok_merged h
  have horder : input.order false = .stored := by simp [order, ho]
  rw [horder] at hvalues
  obtain ⟨next, hnext, hsame'⟩ := Schema.mergeEntries_again hs.distinct hs.payloadKeys
    hs.payloadNumbers hs.properties hvalues hsame.values
  refine ⟨⟨state.identifier, next⟩, ?_, rfl, hsame'⟩
  refine Traced.ok_bind.mpr ⟨⟨stored.identifier, next⟩, ?_, ?_⟩
  · exact Traced.ok_bind.mpr ⟨next, Traced.ok_mapError.mpr (horder.symm ▸ hnext), rfl⟩
  · rw [hsame.identifier]
    exact identified_again hid

end RunInput

/-! ## The files again -/

namespace RunInput

variable {input : RunInput} {r : RunRequest} {t u : FileTree}

theorem info_again (hc : u.current = t.current) {state next : ResourceState}
    (hid : next.identifier = state.identifier) {start : Timestamp} {info : Report.RunInfo}
    (h : input.info start t r state = .ok info) (prior : ResourceState) (start' : Timestamp) :
    RunInput.info { input with prior := prior } start' u r next =
      .ok { info with start := start' } := by
  obtain ⟨path, hpath, h⟩ := Traced.except_bind.mp h
  have hpath' : u.resolved (Path.ofString r.state) = .ok path := by
    rw [FileTree.resolved, FileTree.resolve, hc]
    exact hpath
  obtain rfl := Except.ok.inj h
  refine Traced.except_bind.mpr ⟨path, hpath', ?_⟩
  simp only [FileTree.resolve, hc, hid]

theorem report_spec {start : Timestamp} {state : ResourceState} {p : Path}
    (hp : r.reportPath? = some p) (h : (input.report start t r state).result = .ok ()) :
    ∃ info sheets, input.info start t r state = .ok info ∧
      Report.Accepted (input.changes state) info input.settings.schema ∧
      (t.save p (.workbook sheets)).result = .ok () ∧
      (input.report start t r state).files = (t.save p (.workbook sheets)).files := by
  rw [report, hp] at h ⊢
  cases hinfo : input.info start t r state with
  | error e =>
    simp only [hinfo] at h
    cases h
  | ok info =>
    simp only [hinfo] at h ⊢
    obtain ⟨haccepted, sheets, hsaved, hfiles⟩ := Report.save_spec h
    exact ⟨info, sheets, rfl, haccepted, hsaved, hfiles⟩

end RunInput

namespace RunRequest

structure Apart (r : RunRequest) (t : FileTree) (settings : Settings) (p : Path) : Prop where
  settingsApart : t.place (Path.ofString r.settings) ≠ t.place p
  schemaApart : ∀ q ∈ settings.schema.path, t.place q ≠ t.place p
  payloadApart : t.place (Path.ofString r.remote) ≠ t.place p

/-- State and report are written to two files that hold nothing else of what the run reads. -/
structure WritesApart (r : RunRequest) (t : FileTree) (settings : Settings) : Prop where
  state : r.Apart t settings (Path.ofString r.state)
  report : ∀ p ∈ r.reportPath?,
    r.Apart t settings p ∧ t.place (Path.ofString r.state) ≠ t.place p

theorem load_frame {r : RunRequest} {t u : FileTree} {input : RunInput}
    (hl : RunInput.load t r = .ok input) {p : Path} {d : Document} (hu : FileTree.Holds t u p d)
    (ha : r.Apart t input.settings p) {prior : ResourceState}
    (hp : ResourceState.load u (Path.ofString r.state) = .ok prior) :
    RunInput.load u r = .ok { input with prior := prior } := by
  obtain ⟨hset, hsch, hpay, -⟩ := load_ok.mp hl
  refine load_ok.mpr ⟨?_, hsch, ?_, hp⟩
  · exact Settings.load_frame hu hset ha.settingsApart ha.schemaApart
  · exact Payload.load_frame hu ha.payloadApart hpay

theorem Apart.frame {r : RunRequest} {t u : FileTree} {settings : Settings} {p q : Path}
    {d : Document} (h : r.Apart t settings p) (hu : FileTree.Holds t u q d) :
    r.Apart u settings p where
  settingsApart := by simpa only [hu.place] using h.settingsApart
  schemaApart := by simpa only [hu.place] using h.schemaApart
  payloadApart := by simpa only [hu.place] using h.payloadApart

section Files

variable {r : RunRequest} {t : FileTree} {input : RunInput} {state : ResourceState}
  (hs : (state.save t (Path.ofString r.state)).result = .ok ()) {start : Timestamp}
  (hr : (input.report start (state.save t (Path.ofString r.state)).files r state).result = .ok ())
include hs hr

/-- After a run the next one loads what it loaded, and the state that was stored. The state file
can be written again. -/
theorem load_again (hl : RunInput.load t r = .ok input) (ha : r.WritesApart t input.settings)
    (hk : keysDistinct (.object state.values) = true)
    (hd : digitsWithin Numeral.digitLimit (.object state.values) = true) :
    RunInput.load (input.report start (state.save t (Path.ofString r.state)).files r state).files
        r = .ok { input with prior := state.ordered } ∧
      FileTree.Carries (input.report start (state.save t (Path.ofString r.state)).files r state).files
        (Path.ofString r.state) (.text state.text) := by
  have hholds := FileTree.save_spec hs
  have hload := load_frame hl hholds ha.state (ResourceState.load_saved hs hk hd)
  have hcarries := FileTree.carries_of_save hs
  cases hp : r.reportPath? with
  | none =>
    rw [RunInput.report, hp]
    exact ⟨hload, hcarries⟩
  | some p =>
    obtain ⟨info, sheets, -, -, hsaved, hfiles⟩ := RunInput.report_spec hp hr
    obtain ⟨hapart, hne⟩ := ha.report p hp
    rw [hfiles]
    have hholds' := FileTree.save_spec hsaved
    have hne' : (state.save t (Path.ofString r.state)).files.place (Path.ofString r.state) ≠
        (state.save t (Path.ofString r.state)).files.place p := by
      rw [ResourceState.save, hholds.place, hholds.place]
      exact hne
    have hread := hholds'.read_other hne' (ResourceState.read_saved hs)
    refine ⟨?_, hcarries.frame hholds' hne'⟩
    exact load_frame hload hholds' (hapart.frame hholds) (ResourceState.load_read hread hk hd)

/-- A report can be written again that says that nothing changed. It takes the place of the first
one. -/
theorem report_again {next : ResourceState} (hbefore : Same state.ordered state)
    (hafter : Same next state) (start' : Timestamp) :
    ∃ u, RunInput.report { input with prior := state.ordered } start'
        (input.report start (state.save t (Path.ofString r.state)).files r state).files r next =
          .done u ∧
      u.directories =
        (input.report start (state.save t (Path.ofString r.state)).files r state).files.directories ∧
      ∀ k, (∀ p ∈ r.reportPath?, k ≠ t.place p) → u.documents.get? k =
        (input.report start (state.save t (Path.ofString r.state)).files r state).files.documents.get?
          k := by
  cases hp : r.reportPath? with
  | none =>
    simp only [RunInput.report, hp]
    exact ⟨_, rfl, rfl, fun _ _ => rfl⟩
  | some p =>
    obtain ⟨info, sheets, hinfo, haccepted, hsaved, hfiles⟩ := RunInput.report_spec hp hr
    rw [hfiles]
    have hholds := FileTree.save_spec hs
    have hholds' := FileTree.save_spec hsaved
    have hinfo' := RunInput.info_again hholds'.current hafter.identifier hinfo state.ordered start'
    have haccepted' := Report.accepted_again hbefore.values.tree hafter.values.tree haccepted start'
    obtain ⟨sheets', hsaved'⟩ :=
      Report.save_of_accepted haccepted' (FileTree.carries_of_save hsaved)
    refine ⟨_, Eq.trans ?_ hsaved', rfl, fun k hk => ?_⟩
    · rw [RunInput.report, hp]
      simp only [hinfo']
      rfl
    · have hplace : ((state.save t (Path.ofString r.state)).files.save p
          (.workbook sheets)).files.place p = t.place p := by
        rw [hholds'.place, ResourceState.save, hholds.place]
      dsimp only
      rw [hplace, Entries.get?_set, if_neg (hk p rfl)]

end Files

/-! ## The run again -/

/-- A run on an unchanged remote is stable: it succeeds again, reports no change and leaves every
file as it is but the report. -/
theorem run_again {r : RunRequest} (hr : r.outputPath = Path.ofString r.state)
    (hmode : r.dataSource = false) {t : FileTree} {input : RunInput}
    (hl : RunInput.load t r = .ok input) (ho : input.settings.ignoreListOrder = true)
    (hd : input.schema.Distinct) (hp : nanFree (.object input.payload) = true)
    (hq : nanFree (.object input.prior.values) = true)
    (hs : input.schema.Settled input.payload input.prior.values)
    (ha : r.WritesApart t input.settings) {start : Timestamp} {o : RunOutcome}
    (h : (r.run start t).outcome.result = .ok o) (start' : Timestamp) :
    ∃ o', (r.run start' (r.run start t).files).outcome.result = .ok o' ∧ o'.changed = [] ∧
      (r.run start' (r.run start t).files).files.directories =
        (r.run start t).files.directories ∧
      ∀ k, (∀ p ∈ r.reportPath?, k ≠ t.place p) →
        (r.run start' (r.run start t).files).files.documents.get? k =
          (r.run start t).files.documents.get? k := by
  obtain ⟨input', state, hl', hm, hsave, hreport⟩ := parts_of_run hr h
  obtain rfl := Except.ok.inj (hl.symm.trans hl')
  obtain ⟨hfiles, -⟩ := run_of_parts hr hl hm hsave hreport
  obtain ⟨-, -, hpay, hpri⟩ := load_ok.mp hl
  have hpk := Payload.keysDistinct_load hpay
  have hqk := ResourceState.keysDistinct_load hpri
  obtain ⟨hk, hdigits⟩ := RunInput.merged_of_loaded hpay hpri hm
  have hf := RunInput.everywhere_merged Value.inherited_isNotNaN hp hqk hq hm
  have hordered := ResourceState.same_ordered (ResourceState.nodup_of_keysDistinct hk)
  rw [hmode] at hm
  obtain ⟨next, hnext, hsame⟩ := RunInput.merged_again ⟨hd, hpk, hp, hs⟩ ho hm hordered
  obtain ⟨hload, hcarries⟩ := load_again hsave hreport hl ha hk hdigits
  obtain ⟨u, hagain, hdirectories, hdocuments⟩ :=
    report_again hsave hreport hordered hsame start'
  rw [← hfiles] at hload hcarries hagain hdirectories hdocuments
  have hdone : next.save (r.run start t).files (Path.ofString r.state) =
      .done (r.run start t).files := by
    rw [ResourceState.save, hsame.text]
    exact hcarries.save
  have hsave' : (next.save (r.run start t).files (Path.ofString r.state)).result = .ok () := by
    rw [hdone]
    rfl
  rw [← hmode] at hnext
  have hreport' : (RunInput.report { input with prior := state.ordered } start'
      (next.save (r.run start t).files (Path.ofString r.state)).files r next).result = .ok () := by
    rw [hdone]
    exact congrArg Stored.result hagain
  obtain ⟨hfiles', o', ho', -, hchanged⟩ := run_of_parts hr hload hnext hsave' hreport'
  have hu : (r.run start' (r.run start t).files).files = u := by
    rw [hfiles', hdone]
    exact congrArg Stored.files hagain
  rw [hu]
  refine ⟨o', ho', ?_, hdirectories, hdocuments⟩
  rw [hchanged, changedNames, RunInput.changes,
    Schema.changes_same hk hf hordered.values hsame.values]
  rfl

end RunRequest

/-! ## Parcels -/

/-- Parcels in any order, with a size and a pin that is kept and never read. Of two payloads one
has a size that is no integer. -/
def parcelFiles : FileTree where
  current := ⟨"/", []⟩
  documents :=
    [("/c", .text "schema:\n  path: d\nreconciliation:\n  require_identifier: false"),
     ("/d", .text "properties:
- name: parcels
  type: list
  ignore_order: true
  items:
    properties:
    - \x7bname: size, type: integer\x7d
    - \x7bname: pin, type: string, write_only: true\x7d"),
     ("/q", .text "\x7b\"parcels\":[\x7b\"size\":2\x7d,\x7b\"size\":1\x7d]\x7d"),
     ("/r", .text "\x7b\"parcels\":[\x7b\"size\":1.5\x7d,\x7b\"size\":2\x7d]\x7d"),
     ("/s", .text "\x7b\"values\":\x7b\"parcels\":[\x7b\"size\":1,\"pin\":\"x\"\x7d]\x7d\x7d")]
  directories := []

def parcels : Property :=
  { name := "parcels", kind := .list, ignoreOrder := true
    element := some ⟨[{ name := "size", kind := .integer },
      { name := "pin", kind := .string, writeOnly := true }], false⟩ }

def parcelSchema : Schema := ⟨[parcels], false⟩

def parcelRequest (remote : String) : RunRequest := { settings := "c", remote, state := "s" }

def parcel (size : Int) : Value := .object [("size", .int size)]

def brokenParcel : Value := .object [("size", .float (.nearest (3 / 2)))]

def storedParcel (size : Int) (pin : Value) : Value :=
  .object [("size", .int size), ("pin", pin)]

def parcelState : ResourceState := ⟨none, [("parcels", .array [storedParcel 1 (.string "x")])]⟩

theorem parcelSchema_distinct : parcelSchema.Distinct := by decide

theorem parcelSettings : ∃ settings,
    Settings.load parcelFiles (Path.ofString "c") = .ok settings ∧
    Schema.read settings.schema.text = .ok parcelSchema ∧
    settings.schema.path = some (.ofString "/d") ∧ settings.ignoreListOrder = true ∧
    settings.requireIdentifier = false ∧
    Yaml.wholeCharacters settings.schema.text.toList = true := by
  obtain ⟨settings, hload, htest⟩ := Traced.ok_of_passes (show Traced.passes
    (fun settings => Traced.passes (fun schema => decide (schema = parcelSchema))
        (Schema.read settings.schema.text) &&
      decide (settings.schema.path = some (.ofString "/d")) && settings.ignoreListOrder &&
      !settings.requireIdentifier && Yaml.wholeCharacters settings.schema.text.toList)
    (Settings.load parcelFiles (Path.ofString "c")) = true by decide +kernel)
  simp only [Bool.and_eq_true, decide_eq_true_eq, Bool.not_eq_true'] at htest
  obtain ⟨⟨⟨⟨hschema, hpath⟩, horder⟩, hrequired⟩, hwhole⟩ := htest
  obtain ⟨schema, hread, heq⟩ := Traced.ok_of_passes hschema
  rw [of_decide_eq_true heq] at hread
  exact ⟨settings, hload, hread, hpath, horder, hrequired, hwhole⟩

theorem parcelState_load :
    ResourceState.load parcelFiles (Path.ofString "s") = .ok parcelState := by
  obtain ⟨⟨identifier, values⟩, hload, htest⟩ := Traced.ok_of_passes (show Traced.passes
    (fun state : ResourceState => decide (state.identifier = none) &&
      decide (state.values = parcelState.values))
    (ResourceState.load parcelFiles (Path.ofString "s")) = true by decide +kernel)
  simp only [Bool.and_eq_true, decide_eq_true_eq] at htest
  obtain ⟨rfl, rfl⟩ := htest
  exact hload

/-- The parcels have no identifier, so the merge keeps the one there is. -/
theorem parcels_merged {settings : Settings} (horder : settings.ignoreListOrder = true)
    (hrequired : settings.requireIdentifier = false) {payload values : Entries Value}
    {prior : ResourceState}
    (h : (parcelSchema.mergeEntries .stored payload prior.values).result = .ok values) :
    (RunInput.merged ⟨settings, parcelSchema, payload, prior⟩ false).result =
      .ok ⟨prior.identifier, values⟩ := by
  refine RunInput.merged_of_missing (e := .schema .noIdentifier) rfl rfl hrequired ?_
  rw [RunInput.order, horder]
  exact h

theorem parcels_run (remote : String) (payload values : Entries Value)
    (hremote : remote = "q" ∨ remote = "r")
    (hpayload : Traced.passes (· = payload) (Payload.load parcelFiles (Path.ofString remote)) = true)
    (hvalues : Traced.passes (· = values)
      (parcelSchema.mergeEntries .stored payload parcelState.values).result = true)
    (hsave : Traced.passes (fun _ => true)
      (ResourceState.save ⟨none, values⟩ parcelFiles (Path.ofString "s")).result = true) :
    ∃ settings, settings.ignoreListOrder = true ∧ settings.requireIdentifier = false ∧
      (parcelRequest remote).WritesApart parcelFiles settings ∧
      RunInput.load parcelFiles (parcelRequest remote) =
        .ok ⟨settings, parcelSchema, payload, parcelState⟩ ∧
      (ResourceState.save ⟨none, values⟩ parcelFiles (Path.ofString "s")).result = .ok () ∧
      ∀ start, ∃ o, ((parcelRequest remote).run start parcelFiles).outcome.result = .ok o ∧
        ((parcelRequest remote).run start parcelFiles).files =
          (ResourceState.save ⟨none, values⟩ parcelFiles (Path.ofString "s")).files := by
  obtain ⟨settings, hset, hsch, hpath, horder, hrequired, -⟩ := parcelSettings
  obtain ⟨payload, hpay, heq⟩ := Traced.ok_of_passes hpayload
  obtain rfl := of_decide_eq_true heq
  obtain ⟨values, hmerge, heq⟩ := Traced.ok_of_passes hvalues
  obtain rfl := of_decide_eq_true heq
  obtain ⟨⟨⟩, hs, -⟩ := Traced.ok_of_passes hsave
  have hload : RunInput.load parcelFiles (parcelRequest remote) =
      .ok ⟨settings, parcelSchema, payload, parcelState⟩ :=
    RunRequest.load_ok.mpr ⟨hset, hsch, hpay, parcelState_load⟩
  refine ⟨settings, horder, hrequired, ⟨?_, fun _ hp => nomatch hp⟩, hload, hs, fun start => ?_⟩
  · refine ⟨show parcelFiles.place (Path.ofString "c") ≠ parcelFiles.place (Path.ofString "s") by
      decide +kernel, fun p hp => ?_, ?_⟩
    · obtain rfl := Option.some.inj (hpath.symm.trans hp)
      exact show parcelFiles.place (Path.ofString "/d") ≠
        parcelFiles.place (Path.ofString "s") by decide +kernel
    · rcases hremote with rfl | rfl <;> decide +kernel
  · have hmerged : (RunInput.merged ⟨settings, parcelSchema, payload, parcelState⟩
        (parcelRequest remote).dataSource).result = .ok ⟨none, values⟩ :=
      parcels_merged horder hrequired hmerge
    obtain ⟨hfiles, o, ho, -⟩ := RunRequest.run_of_parts rfl hload hmerged hs rfl
    exact ⟨o, ho, hfiles⟩

open Property Merge

theorem parcels_kept {size : Int} {stored : Value} :
    parcels.ElementAlong Kept (parcel size) stored := by
  intro c hc
  simp only [Property.children, parcels, Option.map_some, Option.getD_some, List.mem_cons,
    List.not_mem_nil, or_false] at hc
  rcases hc with rfl | rfl
  · refine along_primitive rfl (.primitive rfl fun v hv => ?_)
    obtain rfl := Except.ok.inj hv
    exact Value.equals_refl rfl rfl
  · exact .writeOnly rfl

theorem parcels_arrangesAgain :
    parcels.ArrangesAgain 2 [parcel 2, parcel 1] [storedParcel 1 (.string "x")] := by
  have harranged : arranged parcels.sameItem [storedParcel 1 (.string "x")]
      [parcel 2, parcel 1] = [parcel 1, parcel 2] := rfl
  have hfresh : ∀ r ∈ [parcel 2, parcel 1],
      Fresh parcels.sameItem [storedParcel 1 (.string "x")] r → r = parcel 2 := by
    intro r hr hf
    have hsame : parcels.sameItem (storedParcel 1 (.string "x")) (parcel 1) = true := rfl
    rcases List.mem_cons.mp hr with rfl | hr
    · rfl
    · obtain rfl := List.mem_singleton.mp hr
      rw [hf _ (List.mem_singleton_self _)] at hsame
      cases hsame
  refine ⟨by rw [harranged]; rfl, fun _ k r _ hr => ?_, fun _ hlt => ?_,
    fun r hr r' hr' hf hf' _ => ?_, fun _ k l hk hl => ?_⟩
  · rw [harranged] at hr
    have hmem := List.mem_of_getElem? hr
    simp only [List.mem_cons, List.not_mem_nil, or_false] at hmem
    rcases hmem with rfl | rfl <;> exact ⟨rfl, parcels_kept⟩
  · rw [harranged] at hlt
    exact absurd hlt (Nat.lt_irrefl 2)
  · rw [hfresh r hr hf, hfresh r' hr' hf', Interchangeable]
    exact fun _ _ h => h
  · rw [harranged] at hk
    have hnone : [storedParcel 1 (.string "x")][k]? = none :=
      List.getElem?_eq_none (Nat.le_of_succ_le hk)
    rw [hnone] at hl
    cases hl

theorem parcels_settled :
    parcelSchema.Settled [("parcels", .array [parcel 2, parcel 1])] parcelState.values := by
  intro name remote p hmem hfind _
  obtain ⟨rfl, rfl⟩ := Prod.mk.inj (List.mem_singleton.mp hmem)
  obtain rfl := Option.some.inj (hfind.symm.trans
    (show parcelSchema.find? "parcels" = some parcels from rfl))
  rw [show Value.field parcelState.values parcels.stateName =
    .array [storedParcel 1 (.string "x")] from rfl]
  have hlist : parcels.kind = .list := rfl
  refine ⟨fun _ _ => ⟨2, parcels_arrangesAgain⟩, .mk ?_ fun pair _ c hc => ?_⟩
  · intro hset
    rw [hlist] at hset
    cases hset
  simp only [Property.children, parcels, Option.map_some, Option.getD_some, List.mem_cons,
    List.not_mem_nil, or_false] at hc
  rcases hc with rfl | rfl
  · refine along_primitive rfl ?_
    intro hmissing
    cases hmissing
  · exact .writeOnly rfl

def midnight : Timestamp := ⟨2024, 1, 1, 0, 0, 0, 0⟩

/-- The first parcel keeps its place and its pin, however often the parcels are read. -/
theorem parcels_again : ∃ o o',
    ((parcelRequest "q").run midnight parcelFiles).outcome.result = .ok o ∧
    ((parcelRequest "q").run midnight
      ((parcelRequest "q").run midnight parcelFiles).files).outcome.result = .ok o' ∧
    o'.changed = [] ∧ ∀ k,
      ((parcelRequest "q").run midnight
        ((parcelRequest "q").run midnight parcelFiles).files).files.documents.get? k =
          ((parcelRequest "q").run midnight parcelFiles).files.documents.get? k := by
  obtain ⟨settings, horder, -, hapart, hload, -, hruns⟩ := parcels_run "q"
    [("parcels", .array [parcel 2, parcel 1])]
    [("parcels", .array [storedParcel 1 (.string "x"), storedParcel 2 .null])]
    (Or.inl rfl) (by decide +kernel) (by decide +kernel) (by decide +kernel)
  obtain ⟨o, ho, -⟩ := hruns midnight
  obtain ⟨o', ho', hchanged, -, hsame⟩ := RunRequest.run_again rfl rfl hload horder
    parcelSchema_distinct rfl rfl parcels_settled hapart ho midnight
  exact ⟨o, o', ho, ho', hchanged, fun k => hsame k fun _ hp => nomatch hp⟩

/-- A second read of the other payload finds the second parcel first, and gives it the pin of the
first one. -/
theorem parcels_moved : ¬ ∀ (r : RunRequest) (t : FileTree) (input : RunInput)
    (start start' : Timestamp) (o : RunOutcome), r.outputPath = Path.ofString r.state →
    r.dataSource = false → RunInput.load t r = .ok input →
    input.settings.ignoreListOrder = true → input.schema.Distinct →
    nanFree (.object input.payload) = true → nanFree (.object input.prior.values) = true →
    r.WritesApart t input.settings → (r.run start t).outcome.result = .ok o →
    ∃ o', (r.run start' (r.run start t).files).outcome.result = .ok o' ∧ o'.changed = [] ∧
      (r.run start' (r.run start t).files).files.documents.get? (t.place (Path.ofString r.state)) =
        (r.run start t).files.documents.get? (t.place (Path.ofString r.state)) := by
  intro hall
  let first : ResourceState :=
    ⟨none, [("parcels", .array [storedParcel 1 (.string "x"), storedParcel 2 .null])]⟩
  obtain ⟨settings, horder, hrequired, hapart, hload, hs, hruns⟩ := parcels_run "r"
    [("parcels", .array [brokenParcel, parcel 2])] first.values
    (Or.inr rfl) (by decide +kernel) (by decide +kernel) (by decide +kernel)
  obtain ⟨o, ho, hfiles⟩ := hruns midnight
  obtain ⟨o', ho', hchanged, -⟩ := hall _ _ _ midnight midnight o rfl rfl hload horder
    parcelSchema_distinct
    (show nanFree (.object [("parcels", .array [brokenParcel, parcel 2])]) = true by decide +kernel)
    rfl hapart ho
  have hload' := RunRequest.load_frame hload (FileTree.save_spec hs) hapart.state
    (ResourceState.load_saved hs (by decide +kernel) (by decide +kernel))
  obtain ⟨values, hmerge, hnames⟩ := Traced.ok_of_passes (show Traced.passes
    (fun values => ((parcelSchema.changes first.ordered.values values).filter
      PropertyChange.isChange).map PropertyChange.stateName == ["parcels"])
    (parcelSchema.mergeEntries .stored [("parcels", .array [brokenParcel, parcel 2])]
      first.ordered.values).result = true by decide +kernel)
  have hmerged := parcels_merged horder hrequired hmerge
  have hs' : (ResourceState.save ⟨none, values⟩ (first.save parcelFiles (Path.ofString "s")).files
      (Path.ofString "s")).result = .ok () :=
    congrArg Stored.result ((FileTree.carries_of_save hs).replace _)
  obtain ⟨-, again, hagain, -, hchanges⟩ := RunRequest.run_of_parts rfl hload' hmerged hs'
    (show (RunInput.report _ midnight _ _ _).result = .ok () from rfl)
  rw [hfiles] at ho'
  obtain rfl := Except.ok.inj (ho'.symm.trans hagain)
  exact nomatch (hchanged.symm.trans hchanges).trans (beq_iff_eq.mp hnames)

end Reconciliation
