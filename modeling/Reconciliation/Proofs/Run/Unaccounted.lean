import Reconciliation.Command.Execution
import Reconciliation.Proofs.Files.Null
import Reconciliation.Proofs.Run.Failure
import Reconciliation.Proofs.Schema.Scalar
import Reconciliation.Proofs.Settings.Scalar
import Reconciliation.Proofs.State.TooLarge

/-! # Errors that a run does not account for

A run without a report accounts for every error but five: a scalar of the settings or of the schema
that is neither misspelled nor out of range, a merge that is late with a deadline beyond the end of
clocks, an integer that cannot be rounded to a number, and a null character in the path of the new
state. Halves of surrogate pairs, which cannot be encoded, and the depth of calls are outside of this
development.
-/
namespace Reconciliation

namespace RunError

theorem isUnexpected_deadline_iff {d : Deadline} :
    (deadline (if d.timeout.isEndless then .endless else .exceeded d)).isUnexpected = true ↔
      d.timeout.isEndless = true := by
  split
  · rename_i hend
    exact ⟨fun _ => hend, fun _ => rfl⟩
  · rename_i hend
    constructor
    · intro hu
      cases hu
    · exact fun h => absurd h hend

theorem isUnexpected_read_iff {e : ReadError} :
    (read e).isUnexpected = true ↔ e = .merge .integerTooLarge := by
  cases e with
  | schema e => simp [isUnexpected]
  | merge e => cases e <;> simp [isUnexpected]

end RunError

namespace RunInput

variable {input : RunInput} {r : RunRequest}

/-- A read ends in an error that is not accounted for only if it is late with a deadline beyond the end
of clocks, or meets an integer that is too large. -/
theorem read_unexpected {pace : Pace} :
    (∃ e, (input.read r pace).result = .error e ∧ e.isUnexpected = true) ↔
      pace = .late ∧ Seconds.clockLimit ≤ input.settings.timeoutSeconds * Seconds.nanoseconds ∨
        pace = .inTime ∧
          (input.merged r.dataSource).result = .error (.merge .integerTooLarge) := by
  cases pace with
  | late =>
    have hendless : (input.deadline r).timeout.isEndless = true ↔
        Seconds.clockLimit ≤ input.settings.timeoutSeconds * Seconds.nanoseconds :=
      decide_eq_true_iff
    simpa [RunError.isUnexpected_deadline_iff] using hendless
  | waitedTooLong => simp [RunError.isUnexpected]
  | inTime => simp [Traced.error_mapError, RunError.isUnexpected_read_iff]

theorem identified_ne_tooLarge (input : RunInput) (state : ResourceState) :
    (input.identified state).result ≠ .error (.merge .integerTooLarge) := by
  have hextract := input.schema.extractIdentifier_ne_tooLarge input.payload
  intro h
  rw [identified] at h
  split at h
  · rename_i identifier hid
    rw [ResourceState.result_assignIdentifier, hid] at h
    cases h
  · rename_i e hid
    split at h
    · rcases Traced.error_result_bind.mp h with h | ⟨_, -, h⟩
      · cases h
      · cases h
    · rw [Except.error.inj h] at hid
      exact hextract hid

theorem merged_tooLarge_iff {dataSource : Bool} :
    (input.merged dataSource).result = .error (.merge .integerTooLarge) ↔
      (input.schema.mergeEntries (input.order dataSource) input.payload
        input.prior.values).result = .error .integerTooLarge := by
  have hupdate : (input.prior.update input.schema (input.order dataSource)
      (.object input.payload)).result = .error (.merge .integerTooLarge) ↔
      (input.schema.mergeEntries (input.order dataSource) input.payload
        input.prior.values).result = .error .integerTooLarge := by
    rw [ResourceState.update, Traced.error_result_bind]
    constructor
    · rintro (h | ⟨values, -, h⟩)
      · obtain ⟨e, he, hmerge⟩ := Traced.error_mapError.mp h
        obtain rfl := ReadError.merge.inj hmerge
        exact he
      · cases h
    · intro h
      exact .inl (Traced.error_mapError.mpr ⟨_, h, rfl⟩)
  rw [merged, Traced.error_result_bind, hupdate]
  constructor
  · rintro (h | ⟨state, -, h⟩)
    · exact h
    · exact absurd h (input.identified_ne_tooLarge state)
  · exact .inl

theorem mergeable_of_load {t : FileTree} (h : RunInput.load t r = .ok input) {name : String}
    {p : Property} (hp : input.schema.find? name = some p) :
    p.Throughout Property.Mergeable := by
  obtain ⟨-, hread, -, -⟩ := RunRequest.load_ok.mp h
  rw [Schema.read] at hread
  split at hread
  · exact Declaration.reaches_of_schema (fun _ _ _ _ => Declaration.mergeable_of_property) hread
      (.top (Schema.find?_spec hp).1)
  · cases hread
  · cases hread

end RunInput

/-! ## Runs -/

namespace RunRequest

/-- What a run without a report does not account for. -/
inductive Unaccounted (r : RunRequest) (t : FileTree) (pace : Pace) : Prop
  /-- A scalar of the settings. -/
  | settings {text : String} {f : Yaml.Fault} (h : t.read (.ofString r.settings) = .ok text)
    (hf : Yaml.read? text = .error (.fault f)) (hu : f.isUnexpected = true)
  /-- A scalar of the schema. -/
  | schema {settings : Settings} {f : Yaml.Fault}
    (h : Settings.load t (.ofString r.settings) = .ok settings)
    (hf : Yaml.read? settings.schema.text = .error (.fault f)) (hu : f.isUnexpected = true)
  /-- A merge that is late, with a deadline that no clock can tell. -/
  | deadline {input : RunInput} (hl : RunInput.load t r = .ok input) (hpace : pace = .late)
    (h : Seconds.clockLimit ≤ input.settings.timeoutSeconds * Seconds.nanoseconds)
  /-- An integer, after the entries of the payload that are merged before it. -/
  | number {input : RunInput} {before after : Entries Value} {name : String}
    {remote arranged : Value} {values : Entries Value} {p : Property} (hpace : pace = .inTime)
    (hl : RunInput.load t r = .ok input) (hp : input.payload = before ++ (name, remote) :: after)
    (hm : (input.schema.mergeEntries (input.order r.dataSource) before
      input.prior.values).result = .ok values)
    (hf : input.schema.find? name = some p) (hs : p.stateName ∉ Schema.reservedNames)
    (ha : Schema.arrangedRemote (input.order r.dataSource) p remote
      (Value.field values p.stateName) = .ok (some arranged))
    (h : p.MeetsTooLarge arranged)
  /-- A null character in the path of the new state, found out before anything else there. -/
  | output {input : RunInput} {state : ResourceState} (hpace : pace = .inTime)
    (hl : RunInput.load t r = .ok input) (hm : (input.merged r.dataSource).result = .ok state)
    (hn : r.outputPath.hasNull = true)
    (hd : r.outputPath.parent.hasNull = true ∨
      (t.makeDirectories r.outputPath.parent).result = .ok ())

variable {r : RunRequest} {t : FileTree} {pace : Pace}

theorem load_unexpected_iff :
    (∃ e, RunInput.load t r = .error e ∧ e.isUnexpected = true) ↔
      (∃ text f, t.read (.ofString r.settings) = .ok text ∧
        Yaml.read? text = .error (.fault f) ∧ f.isUnexpected = true) ∨
      ∃ settings f, Settings.load t (.ofString r.settings) = .ok settings ∧
        Yaml.read? settings.schema.text = .error (.fault f) ∧ f.isUnexpected = true := by
  constructor
  · rintro ⟨e, h, hu⟩
    rcases Traced.error_mapError_bind.mp h with ⟨e', hset, rfl⟩ | ⟨settings, hset, h⟩
    · cases e' with
      | invalidScalar f =>
        obtain ⟨text, htext, hread⟩ := Settings.load_invalidScalar_iff.mp hset
        exact .inl ⟨text, f, htext, hread, hu⟩
      | _ => cases hu
    rcases Traced.error_mapError_bind.mp h with ⟨e', hsch, rfl⟩ | ⟨schema, -, h⟩
    · cases e' with
      | invalidScalar f =>
        exact .inr ⟨settings, f, hset, Schema.read_invalidScalar_iff.mp hsch, hu⟩
      | _ => cases hu
    rcases Traced.error_mapError_bind.mp h with ⟨e', -, rfl⟩ | ⟨payload, -, h⟩
    · cases hu
    rcases Traced.error_mapError_bind.mp h with ⟨e', -, rfl⟩ | ⟨prior, -, h⟩
    · cases hu
    · cases h
  · rintro (⟨text, f, htext, hread, hu⟩ | ⟨settings, f, hset, hread, hu⟩)
    · refine ⟨.settings (.invalidScalar f), ?_, hu⟩
      apply Traced.error_mapError_bind.mpr
      exact .inl ⟨_, Settings.load_invalidScalar_iff.mpr ⟨text, htext, hread⟩, rfl⟩
    · refine ⟨.schema (.invalidScalar f), ?_, hu⟩
      apply Traced.error_mapError_bind.mpr
      refine .inr ⟨settings, hset, ?_⟩
      apply Traced.error_mapError_bind.mpr
      exact .inl ⟨_, Schema.read_invalidScalar_iff.mpr hread, rfl⟩

theorem merged_tooLarge_iff {input : RunInput} (hl : RunInput.load t r = .ok input) :
    (input.merged r.dataSource).result = .error (.merge .integerTooLarge) ↔
      ∃ before name remote after values p arranged,
        input.payload = before ++ (name, remote) :: after ∧
        (input.schema.mergeEntries (input.order r.dataSource) before
          input.prior.values).result = .ok values ∧
        input.schema.find? name = some p ∧ p.stateName ∉ Schema.reservedNames ∧
        Schema.arrangedRemote (input.order r.dataSource) p remote
          (Value.field values p.stateName) = .ok (some arranged) ∧
        p.MeetsTooLarge arranged := by
  rw [RunInput.merged_tooLarge_iff]
  constructor
  · intro h
    obtain ⟨before, name, remote, after, values, hp, hm, h⟩ := Schema.error_mergeEntries.mp h
    obtain ⟨p, hf, hs, h⟩ := Schema.error_mergeProperty.mp h
    obtain ⟨arranged, ha, h⟩ :=
      (Property.update_tooLarge_iff (RunInput.mergeable_of_load hl hf)).mp h
    exact ⟨before, name, remote, after, values, p, arranged, hp, hm, hf, hs, ha, h⟩
  · rintro ⟨before, name, remote, after, values, p, arranged, hp, hm, hf, hs, ha, h⟩
    have hupdate := (Property.update_tooLarge_iff (RunInput.mergeable_of_load hl hf)).mpr ⟨_, ha, h⟩
    have hproperty := Schema.error_mergeProperty.mpr ⟨p, hf, hs, hupdate⟩
    exact Schema.error_mergeEntries.mpr ⟨before, name, remote, after, values, hp, hm, hproperty⟩

/-- A run without a report ends in an error that it does not account for in these cases only. -/
theorem unexpected_iff (hr : r.reportPath? = none) (start : Timestamp) (t : FileTree)
    (pace : Pace) :
    (∃ e, (r.run start t pace).outcome.result = .error e ∧ e.isUnexpected = true) ↔
      r.Unaccounted t pace := by
  constructor
  · rintro ⟨e, he, hu⟩
    have hends := ends_of_run r start t pace
    rw [he] at hends
    generalize (r.run start t pace).files = u at hends
    cases hends with
    | loading h =>
      rcases load_unexpected_iff.mp ⟨e, h, hu⟩ with ⟨text, f, h, hf, hu⟩ | ⟨s, f, h, hf, hu⟩
      · exact .settings h hf hu
      · exact .schema h hf hu
    | reading hl h =>
      rcases RunInput.read_unexpected.mp ⟨e, h, hu⟩ with ⟨hpace, h⟩ | ⟨hpace, h⟩
      · exact .deadline hl hpace h
      · obtain ⟨before, name, remote, after, values, p, arranged, hp, hm, hf, hs, ha, h⟩ :=
          (merged_tooLarge_iff hl).mp h
        exact .number hpace hl hp hm hf hs ha h
    | saving hl hm h =>
      obtain ⟨hpace, hmerged⟩ := ok_read.mp hm
      obtain ⟨hn, hd⟩ := FileTree.save_null_iff.mp ⟨_, h, of_decide_eq_true hu⟩
      exact .output hpace hl hmerged hn hd
    | reporting hl hm hs h =>
      obtain ⟨path, hpath⟩ := exists_reportPath h
      rw [hr] at hpath
      cases hpath
  · intro h
    cases h with
    | settings h hf hu =>
      obtain ⟨e, he, hu⟩ := load_unexpected_iff.mpr (.inl ⟨_, _, h, hf, hu⟩)
      exact ⟨e, (run_of_ends (.loading he)).1, hu⟩
    | schema h hf hu =>
      obtain ⟨e, he, hu⟩ := load_unexpected_iff.mpr (.inr ⟨_, _, h, hf, hu⟩)
      exact ⟨e, (run_of_ends (.loading he)).1, hu⟩
    | deadline hl hpace h =>
      obtain ⟨e, he, hu⟩ := RunInput.read_unexpected.mpr (.inl ⟨hpace, h⟩)
      exact ⟨e, (run_of_ends (.reading hl he)).1, hu⟩
    | number hpace hl hp hm hf hs ha h =>
      have hmerged := (merged_tooLarge_iff hl).mpr ⟨_, _, _, _, _, _, _, hp, hm, hf, hs, ha, h⟩
      obtain ⟨e, he, hu⟩ := RunInput.read_unexpected.mpr (.inr ⟨hpace, hmerged⟩)
      exact ⟨e, (run_of_ends (.reading hl he)).1, hu⟩
    | output hpace hl hm hn hd =>
      obtain ⟨e, he, hcause⟩ := FileTree.save_null_iff.mpr ⟨hn, hd⟩
      have hends : r.Ends start t pace (.error (.output e)) _ :=
        .saving hl (ok_read.mpr ⟨hpace, hm⟩) he
      exact ⟨.output e, (run_of_ends hends).1, decide_eq_true hcause⟩

/-! ## What the command makes of it -/

/-- What a command tells of a run: where the new state is, or one message of what went wrong. -/
inductive Tells : Except RunError RunOutcome → CommandResult → Prop
  | success {o : RunOutcome} {c : CommandResult} (he : c.ending = .exit 0)
    (ho : c.output = CommandResult.line o.output.text) : Tells (.ok o) c
  | failure {e : RunError} {c : CommandResult} {log : String} (he : c.ending = .exit 1)
    (ho : c.output = "") (hm : c.messages = log ++ CommandResult.line e.message) :
    Tells (.error e) c

def SettingsExplained (r : RunRequest) (t : FileTree) : Prop :=
  ∀ e, Settings.load t (.ofString r.settings) = .error e → Command.isExplained e = true

theorem isUnexpected_of_isExplained {e : SettingsError} (h : Command.isExplained e = true) :
    (RunError.settings e).isUnexpected = false := by
  cases e with
  | invalidScalar f => cases h
  | _ => rfl

theorem run_of_settingsError {start : Timestamp} {e : SettingsError}
    (h : Settings.load t (.ofString r.settings) = .error e) :
    (r.run start t pace).outcome.result = .error (.settings e) :=
  (run_of_ends (.loading (Traced.error_mapError_bind.mpr (.inl ⟨e, h, rfl⟩)))).1

theorem runAt_exits_iff {level : Log.Level} {start : Timestamp} :
    (∃ code, (Command.runAt t start level r pace).ending = .exit code) ↔
      ¬∃ e, (r.run start t pace).outcome.result = .error e ∧ e.isUnexpected = true := by
  rw [Command.runAt]
  cases (r.run start t pace).outcome.result with
  | ok o =>
    constructor
    · rintro - ⟨e, he, -⟩
      cases he
    · exact fun _ => ⟨0, rfl⟩
  | error e =>
    dsimp only
    by_cases hu : e.isUnexpected = true
    · rw [if_pos hu]
      constructor
      · rintro ⟨code, hcode⟩
        cases hcode
      · exact fun h => absurd ⟨e, rfl, hu⟩ h
    · rw [if_neg hu]
      constructor
      · rintro - ⟨e', he', hu'⟩
        exact hu (Except.error.inj he' ▸ hu')
      · exact fun _ => ⟨1, rfl⟩

theorem tells_of_runAt {level : Log.Level} {start : Timestamp} {code : ℕ}
    (h : (Command.runAt t start level r pace).ending = .exit code) :
    Tells (r.run start t pace).outcome.result (Command.runAt t start level r pace) := by
  rw [Command.runAt] at h ⊢
  cases hresult : (r.run start t pace).outcome.result with
  | ok o => exact .success rfl rfl
  | error e =>
    rw [hresult] at h
    dsimp only at h ⊢
    split at h
    · cases h
    · rename_i hu
      rw [if_neg hu]
      exact .failure rfl rfl rfl

/-- Without a level of its own the command loads the settings first, for theirs. -/
theorem runReconcile_exits_iff (hr : r.reportPath? = none) (start : Timestamp)
    (level : Option Log.Level) :
    (∃ code, (Command.runReconcile t start level r pace).ending = .exit code) ↔
      ¬r.Unaccounted t pace ∧ (level = none → r.SettingsExplained t) := by
  rw [← unexpected_iff hr start t pace]
  cases level with
  | some level =>
    rw [Command.runReconcile, runAt_exits_iff]
    exact ⟨fun h => ⟨h, nofun⟩, And.left⟩
  | none =>
    rw [Command.runReconcile]
    cases hset : Settings.load t (.ofString r.settings) with
    | ok settings =>
      dsimp only
      rw [runAt_exits_iff]
      refine ⟨fun h => ⟨h, fun _ e he => ?_⟩, And.left⟩
      cases hset.symm.trans he
    | error e =>
      dsimp only
      by_cases hex : Command.isExplained e = true
      · rw [if_pos hex]
        refine ⟨fun _ => ⟨?_, fun _ e' he' => ?_⟩, fun _ => ⟨1, rfl⟩⟩
        · rintro ⟨e', he', hu⟩
          obtain rfl := Except.error.inj ((run_of_settingsError hset).symm.trans he')
          rw [isUnexpected_of_isExplained hex] at hu
          cases hu
        · obtain rfl := Except.error.inj (hset.symm.trans he')
          exact hex
      · rw [if_neg hex]
        constructor
        · rintro ⟨code, hcode⟩
          cases hcode
        · rintro ⟨-, hexplained⟩
          exact absurd (hexplained rfl e hset) hex

theorem tells_of_runReconcile {start : Timestamp} {level : Option Log.Level} {code : ℕ}
    (h : (Command.runReconcile t start level r pace).ending = .exit code) :
    Tells (r.run start t pace).outcome.result (Command.runReconcile t start level r pace) := by
  cases level with
  | some level => exact tells_of_runAt h
  | none =>
    rw [Command.runReconcile] at h ⊢
    cases hset : Settings.load t (.ofString r.settings) with
    | ok settings =>
      rw [hset] at h
      exact tells_of_runAt h
    | error e =>
      rw [hset] at h
      dsimp only at h ⊢
      split at h
      · rename_i hex
        rw [if_pos hex, run_of_settingsError hset]
        exact .failure rfl rfl String.empty_append.symm
      · cases h

/-- A run without a report ends in an outcome, or in an error that it accounts for, unless it meets
one of the things that are unaccounted for. The command then exits with what came of the run, or with
its one message; all else breaks it, and so do settings that it loads for its log level alone and that
cannot be read. Texts with halves of surrogate pairs are left out: their hash and their text cannot be
encoded, which no error accounts for either. So is nesting beyond the depth of calls, as that of a
declaration inside itself. -/
theorem run_accounts (_hw : r.WholeTexts t) (hr : r.reportPath? = none) (start : Timestamp)
    (pace : Pace) :
    ((∃ e, (r.run start t pace).outcome.result = .error e ∧ e.isUnexpected = true) ↔
      r.Unaccounted t pace) ∧
    ∀ level, ((∃ code, (Command.runReconcile t start level r pace).ending = .exit code) ↔
        ¬r.Unaccounted t pace ∧ (level = none → r.SettingsExplained t)) ∧
      ∀ code, (Command.runReconcile t start level r pace).ending = .exit code →
        Tells (r.run start t pace).outcome.result (Command.runReconcile t start level r pace) := by
  refine ⟨unexpected_iff hr start t pace, fun level => ?_⟩
  exact ⟨runReconcile_exits_iff hr start level, fun code hcode => tells_of_runReconcile hcode⟩

end RunRequest

/-! ## A weight that no number comes near -/

def heavyPayload : Entries Value := [("weight", .int (10 ^ 309))]

def heavyFiles : FileTree where
  current := ⟨"/", []⟩
  documents :=
    [("/c", .text "schema: \x7binline: 'properties: [\x7bname: weight, type: float\x7d]'\x7d"),
     ("/r", .text (Json.Style.print ⟨false, false⟩ (.object heavyPayload))),
     ("/s", .text "\x7b\x7d")]
  directories := []

def heavyRequest : RunRequest := { settings := "c", remote := "r", state := "s" }

theorem heavyPayload_read : heavyFiles.read (.ofString "r") =
    .ok (String.ofList (Json.Style.text ⟨false, false⟩ 0 (.object heavyPayload) ++ [])) := by
  have hread : heavyFiles.read (.ofString "r") = .ok (String.ofList (FileTree.withLineFeeds
      (String.ofList (Json.Style.text ⟨false, false⟩ 0 (.object heavyPayload))).toList)) := rfl
  rw [hread, String.toList_ofList, FileTree.withLineFeeds_of_plain (Json.plain_text_value _ _ _),
    List.append_nil]

theorem heavyPayload_load :
    Payload.load heavyFiles (.ofString "r") = .ok heavyPayload := by
  have hkeys : Value.keysDistinct (.object heavyPayload) = true := by decide
  have hdigits : Value.digitsWithin Numeral.digitLimit (.object heavyPayload) = true := by
    decide +kernel
  rw [Payload.load, heavyPayload_read]
  dsimp only
  rw [Payload.ofText, Json.read_text rfl hkeys hdigits [] (List.forall_mem_nil _)]

theorem heavy_load : ∃ input, RunInput.load heavyFiles heavyRequest = .ok input ∧
    ((input.read heavyRequest).error?.any RunError.isUnexpected) = true ∧
    Yaml.wholeCharacters input.settings.schema.text.toList = true := by
  obtain ⟨settings, hset, htest⟩ := Traced.ok_of_passes (show Traced.passes
    (fun settings => Traced.passes
      (fun schema => Traced.passes
        (fun prior => ((⟨settings, schema, heavyPayload, prior⟩ : RunInput).read
          heavyRequest).error?.any RunError.isUnexpected)
        (ResourceState.load heavyFiles (.ofString "s")))
      (Schema.read settings.schema.text) && Yaml.wholeCharacters settings.schema.text.toList)
    (Settings.load heavyFiles (.ofString "c")) = true by decide +kernel)
  obtain ⟨hschema, hwhole⟩ := (Bool.and_eq_true _ _).mp htest
  obtain ⟨schema, hschema, hprior⟩ := Traced.ok_of_passes hschema
  obtain ⟨prior, hprior, hread⟩ := Traced.ok_of_passes hprior
  have hload : RunInput.load heavyFiles heavyRequest =
      .ok ⟨settings, schema, heavyPayload, prior⟩ :=
    RunRequest.load_ok.mpr ⟨hset, hschema, heavyPayload_load, hprior⟩
  exact ⟨_, hload, hread, hwhole⟩

theorem heavy_wholeTexts : heavyRequest.WholeTexts heavyFiles where
  settings := by decide +kernel
  schema := by
    obtain ⟨input, hload, -, hwhole⟩ := heavy_load
    obtain ⟨hset, -⟩ := RunRequest.load_ok.mp hload
    rw [hset]
    rintro _ ⟨⟩
    exact hwhole
  payload := by
    have hread : heavyFiles.read (.ofString heavyRequest.remote) = _ := heavyPayload_read
    simp only [hread, Except.toOption, Option.mem_some_iff, forall_eq', String.toList_ofList]
    exact Json.wholeCharacters_text _ _ List.not_mem_nil
  state := by decide +kernel

theorem heavy_unexpected (start : Timestamp) :
    ∃ e, (heavyRequest.run start heavyFiles).outcome.result = .error e ∧
      e.isUnexpected = true := by
  obtain ⟨input, hload, hread, -⟩ := heavy_load
  obtain ⟨e, he, hu⟩ := (Option.any_eq_true _ _).mp hread
  have hends : heavyRequest.Ends start heavyFiles .inTime (.error e) heavyFiles :=
    .reading hload (Traced.error?_eq_some_iff.mp he)
  exact ⟨e, (RunRequest.run_of_ends hends).1, hu⟩

/-- The weight breaks the command, whatever its log level. -/
theorem heavy_unaccounted : heavyRequest.WholeTexts heavyFiles ∧ heavyRequest.reportPath? = none ∧
    heavyRequest.Unaccounted heavyFiles .inTime ∧
    ∀ level, ¬∃ code,
      (Command.runReconcile heavyFiles midnight level heavyRequest).ending = .exit code := by
  obtain ⟨hrun, hcommand⟩ := RunRequest.run_accounts heavy_wholeTexts rfl midnight .inTime
  have hunaccounted := hrun.mp (heavy_unexpected midnight)
  refine ⟨heavy_wholeTexts, rfl, hunaccounted, fun level hexit => ?_⟩
  obtain ⟨haccounted, -⟩ := (hcommand level).1.mp hexit
  exact haccounted hunaccounted

theorem heavy_escapes : ¬ ∀ (r : RunRequest) (start : Timestamp) (t : FileTree) (e : RunError),
    r.reportPath? = none → (r.run start t).outcome.result = .error e → e.isUnexpected = false := by
  intro hall
  obtain ⟨e, he, hu⟩ := heavy_unexpected midnight
  rw [hall heavyRequest midnight heavyFiles e rfl he] at hu
  cases hu

end Reconciliation
