import Reconciliation.Proofs.Json.RoundTrip
import Reconciliation.Proofs.Merge.SameTree
import Reconciliation.Proofs.Report.Again
import Reconciliation.Proofs.Schema.Shape
import Reconciliation.Proofs.Value.Decision
import Reconciliation.Proofs.Value.Equality

/-! # What a report discloses

A report masks the write-only properties of a schema, but not those further down: an object or a
collection is shown with everything that is stored in it. So two runs that differ in write-only values
only have the same change rows for the schemas in which no property that is shown has a write-only
property below it, and for no other schemas.
-/
namespace Reconciliation

namespace Value

structure Comparable (v w : Value) : Prop where
  shape : v.shape = w.shape
  left : v.keysDistinct = true
  right : w.keysDistinct = true

structure Apart (v w : Value) : Prop extends Comparable v w where
  other : ¬SameTree v w

namespace Apart

variable {v w : Value} (h : Apart v w)
include h

theorem entry (k : String) : Apart (.object [(k, v)]) (.object [(k, w)]) where
  shape := rfl
  left := by simpa using h.left
  right := by simpa using h.right
  other := by
    intro hsame
    have hfield := hsame.field k
    simp only [field, Entries.get?_cons, if_true, Option.getD_some] at hfield
    exact h.other hfield

theorem item : Apart (.array [v]) (.array [w]) where
  shape := rfl
  left := by simpa using h.left
  right := by simpa using h.right
  other := by
    intro hsame
    exact h.other (List.forall₂_cons.mp hsame.items).1

end Apart

end Value

open Value (SameTree Comparable keysDistinct)

namespace Property

/-! ## Values that differ in write-only values only -/

mutual

/-- Two stored values of a property differ at most in what is stored under the names of write-only
properties. -/
inductive SameButSecrets : Property → Value → Value → Prop
  | same {p : Property} (v : Value) : SameButSecrets p v v
  | writeOnly {p : Property} (hw : p.writeOnly = true) (v w : Value) : SameButSecrets p v w
  | object {p : Property} {es fs : Entries Value} (hk : p.kind = .object)
    (h : SameFields p.children es fs) : SameButSecrets p (.object es) (.object fs)
  | wrapped {p : Property} {es fs : Entries Value} (hk : p.kind = .object)
    (h : SameFields p.children es fs) :
    SameButSecrets p (.array [.object es]) (.array [.object fs])
  | collection {p : Property} {vs ws : List Value} (hk : p.kind.isCollection = true)
    (h : SameElements p.children vs ws) : SameButSecrets p (.array vs) (.array ws)

inductive SameFields : List Property → Entries Value → Entries Value → Prop
  | nil {cs : List Property} : SameFields cs [] []
  | same {cs : List Property} {es fs : Entries Value} (k : String) (v : Value)
    (h : SameFields cs es fs) : SameFields cs ((k, v) :: es) ((k, v) :: fs)
  | child {cs : List Property} {c : Property} {es fs : Entries Value} {v w : Value} (hc : c ∈ cs)
    (hv : SameButSecrets c v w) (h : SameFields cs es fs) :
    SameFields cs ((c.stateName, v) :: es) ((c.stateName, w) :: fs)

inductive SameElements : List Property → List Value → List Value → Prop
  | nil {cs : List Property} : SameElements cs [] []
  | same {cs : List Property} {vs ws : List Value} (v : Value) (h : SameElements cs vs ws) :
    SameElements cs (v :: vs) (v :: ws)
  | object {cs : List Property} {es fs : Entries Value} {vs ws : List Value}
    (he : SameFields cs es fs) (h : SameElements cs vs ws) :
    SameElements cs (.object es :: vs) (.object fs :: ws)

end

/-- The values of a property may hold write-only values: its own, or those of a property below. -/
inductive HoldsSecrets : Property → Prop
  | writeOnly {p : Property} (hw : p.writeOnly = true) : HoldsSecrets p
  | child {p c : Property} (hk : p.kind = .object ∨ p.kind.isCollection = true)
    (hc : c ∈ p.children) (h : HoldsSecrets c) : HoldsSecrets p

/-- Values of a property that is not write-only have the same shape. -/
theorem SameButSecrets.shape {p : Property} {v w : Value} (h : p.SameButSecrets v w)
    (hw : p.writeOnly = false) : v.shape = w.shape := by
  cases h with
  | writeOnly h =>
    rw [hw] at h
    cases h
  | _ => rfl

theorem SameFields.field {cs : List Property} {es fs : Entries Value} (h : SameFields cs es fs)
    (k : String) : Value.field es k = Value.field fs k ∨
      ∃ c ∈ cs, c.stateName = k ∧ c.SameButSecrets (Value.field es k) (Value.field fs k) := by
  induction es generalizing fs with
  | nil =>
    cases h
    exact .inl rfl
  | cons e es ih =>
    cases h with
    | same l v h =>
      rw [Value.field, Value.field, Entries.get?_cons, Entries.get?_cons]
      by_cases hk : k = l
      · rw [if_pos hk, if_pos hk]
        exact .inl rfl
      · rw [if_neg hk, if_neg hk]
        exact ih h
    | @child _ c _ _ v w hc hv h =>
      rw [Value.field, Value.field, Entries.get?_cons, Entries.get?_cons]
      by_cases hk : k = c.stateName
      · rw [if_pos hk, if_pos hk]
        exact .inr ⟨c, hc, hk.symm, hv⟩
      · rw [if_neg hk, if_neg hk]
        exact ih h

section Equal

variable {cs : List Property} (ih : ∀ c ∈ cs, ∀ v w, c.SameButSecrets v w → v = w)
include ih

theorem SameFields.eq {es fs : Entries Value} (h : SameFields cs es fs) : es = fs := by
  induction es generalizing fs with
  | nil =>
    cases h
    rfl
  | cons e es hrest =>
    cases h with
    | same k v h => rw [hrest h]
    | child hc hv h => rw [ih _ hc _ _ hv, hrest h]

theorem SameElements.eq {vs ws : List Value} (h : SameElements cs vs ws) : vs = ws := by
  induction vs generalizing ws with
  | nil =>
    cases h
    rfl
  | cons v vs hrest =>
    cases h with
    | same _ h => rw [hrest h]
    | object he h => rw [SameFields.eq ih he, hrest h]

end Equal

/-- Values that hold no write-only values do not differ. -/
theorem SameButSecrets.eq {p : Property} (hp : ¬p.HoldsSecrets) {v w : Value}
    (h : p.SameButSecrets v w) : v = w := by
  induction p generalizing v w with
  | step p ih =>
    have ih (hk : p.kind = .object ∨ p.kind.isCollection = true) :
        ∀ c ∈ p.children, ∀ v w, c.SameButSecrets v w → v = w := by
      intro c hc v w hcv
      apply ih c hc _ hcv
      intro hsecrets
      exact hp (.child hk hc hsecrets)
    cases h with
    | same => rfl
    | writeOnly hw => exact absurd (.writeOnly hw) hp
    | object hk h => rw [SameFields.eq (ih (.inl hk)) h]
    | wrapped hk h => rw [SameFields.eq (ih (.inl hk)) h]
    | collection hk h => rw [SameElements.eq (ih (.inr hk)) h]

/-- A value that may hold a write-only value can differ in it. -/
theorem HoldsSecrets.differ {p : Property} (h : p.HoldsSecrets) :
    ∃ v w, p.SameButSecrets v w ∧ Value.Apart v w := by
  induction h with
  | writeOnly hw =>
    refine ⟨.string "a", .string "b", .writeOnly hw _ _, ⟨rfl, rfl, rfl⟩, ?_⟩
    simp [SameTree]
  | @child p c hk hc _ ih =>
    obtain ⟨v, w, hsecrets, hapart⟩ := ih
    have hfields : SameFields p.children [(c.stateName, v)] [(c.stateName, w)] :=
      .child hc hsecrets .nil
    rcases hk with hk | hk
    · by_cases hwraps : p.wraps = true
      · exact ⟨_, _, .wrapped hk hfields, (hapart.entry c.stateName).item⟩
      · exact ⟨_, _, .object hk hfields, hapart.entry c.stateName⟩
    · exact ⟨_, _, .collection hk (.object hfields .nil), (hapart.entry c.stateName).item⟩

end Property

namespace Report

/-! ## What can be told from a row -/

/-- Two values that a report shows alike: the same, or objects with their entries in another order. -/
def ShownAlike (v w : Value) : Prop := v = w ∨ v.shape = .object ∧ SameTree v w

theorem ShownAlike.sameTree {v w : Value} (h : ShownAlike v w) : SameTree v w := by
  rcases h with rfl | ⟨-, h⟩
  · exact SameTree.refl v
  · exact h

theorem shown_eq_self {v : Value} (h : v.shape = .null ∨ v.shape = .scalar) : shown v = v := by
  cases v <;> first | rfl | simp [Value.shape] at h

/-- What is shown of a value tells it from all others of its shape. -/
theorem shown_eq_iff {v w : Value} (h : Comparable v w) : shown v = shown w ↔ ShownAlike v w := by
  obtain ⟨hshape, hv, hw⟩ := h
  by_cases hplain : v.shape = .null ∨ v.shape = .scalar
  · rw [shown_eq_self hplain, shown_eq_self (hshape ▸ hplain)]
    constructor
    · exact .inl
    · rintro (h | ⟨hobject, -⟩)
      · exact h
      · simp [hobject] at hplain
  · cases v with
    | object es =>
      cases w with
      | object fs =>
        rw [shown, shown, Value.string.injEq, Json.print_eq_iff_sameTree rfl hv hw]
        constructor
        · intro h
          exact .inr ⟨rfl, h⟩
        · exact ShownAlike.sameTree
      | _ => cases hshape
    | array xs =>
      cases w with
      | array ys =>
        rw [shown, shown, Value.string.injEq, Json.print_eq_iff rfl hv hw]
        constructor
        · exact .inl
        · rintro (h | ⟨hobject, -⟩)
          · exact h
          · cases hobject
      | _ => cases hshape
    | _ => simp [Value.shape] at hplain

theorem status_congr {p : Property} {before after before' after' : Value}
    (hb : SameTree before before') (ha : SameTree after after') :
    p.status before after = p.status before' after' := by
  rw [Property.status, Property.status, hb.isNull, ha.isNull, hb.equals ha]

section Rows

variable {before after before' after' : Entries Value}

theorem changeRow_writeOnly {p : Property} (hw : p.writeOnly = true) :
    changeRow (p.change before after) = changeRow (p.change before' after') := by
  rw [changeRow_change, changeRow_change, Property.status_eq_writeOnly.mpr hw,
    Property.status_eq_writeOnly.mpr hw]
  simp only [if_pos hw]

theorem changeRow_eq_iff {p : Property} (hw : p.writeOnly = false)
    (hb : Comparable (Value.field before p.stateName) (Value.field before' p.stateName))
    (ha : Comparable (Value.field after p.stateName) (Value.field after' p.stateName)) :
    changeRow (p.change before after) = changeRow (p.change before' after') ↔
      ShownAlike (Value.field before p.stateName) (Value.field before' p.stateName) ∧
        ShownAlike (Value.field after p.stateName) (Value.field after' p.stateName) := by
  have hw' : ¬p.writeOnly = true := by
    rw [hw]
    exact Bool.false_ne_true
  rw [changeRow_change, changeRow_change, ← shown_eq_iff hb, ← shown_eq_iff ha]
  simp only [if_neg hw']
  constructor
  · intro h
    obtain ⟨-, -, hprevious, hmerged, -⟩ := by simpa only [List.cons.injEq] using h
    exact ⟨hprevious, hmerged⟩
  · intro ⟨hprevious, hmerged⟩
    have hstatus := status_congr (p := p) ((shown_eq_iff hb).mp hprevious).sameTree
      ((shown_eq_iff ha).mp hmerged).sameTree
    rw [hprevious, hmerged, hstatus]

theorem changeRows_eq_iff {s : Schema} :
    changeRows (s.changes before after) = changeRows (s.changes before' after') ↔
      ∀ p ∈ s.properties,
        changeRow (p.change before after) = changeRow (p.change before' after') := by
  rw [changeRows, changeRows, Schema.changes, Schema.changes, List.map_map, List.map_map,
    List.cons.injEq, List.map_inj_left]
  exact and_iff_right rfl

/-- Two runs that differ in write-only values only have the same change rows exactly if no value that
is shown differs: what differs below a property that is shown can be told from its row. -/
theorem changeRows_eq_iff_shownAlike {s : Schema}
    (hn : (s.properties.map Property.stateName).Nodup)
    (hkeys : ∀ es ∈ [before, after, before', after'], keysDistinct (.object es) = true)
    (hb : Property.SameFields s.properties before before')
    (ha : Property.SameFields s.properties after after') :
    changeRows (s.changes before after) = changeRows (s.changes before' after') ↔
      ∀ p ∈ s.properties, p.writeOnly = false →
        ShownAlike (Value.field before p.stateName) (Value.field before' p.stateName) ∧
          ShownAlike (Value.field after p.stateName) (Value.field after' p.stateName) := by
  have hfield {es : Entries Value} (h : keysDistinct (.object es) = true) (k : String) :
      (Value.field es k).keysDistinct = true :=
    Value.everywhere_field rfl (Value.keysDistinct_object.mp h).2 k
  have hcomparable {es fs : Entries Value} (h : Property.SameFields s.properties es fs)
      (he : keysDistinct (.object es) = true) (hf : keysDistinct (.object fs) = true) {p : Property}
      (hp : p ∈ s.properties) (hw : p.writeOnly = false) :
      Comparable (Value.field es p.stateName) (Value.field fs p.stateName) := by
    refine ⟨?_, hfield he _, hfield hf _⟩
    rcases h.field p.stateName with heq | ⟨c, hc, hname, hsecrets⟩
    · rw [heq]
    · obtain rfl := List.inj_on_of_nodup_map hn hc hp hname
      exact hsecrets.shape hw
  simp only [List.forall_mem_cons] at hkeys
  obtain ⟨hkb, hka, hkb', hka', -⟩ := hkeys
  rw [changeRows_eq_iff]
  refine forall₂_congr fun p hp => ?_
  cases hw : p.writeOnly with
  | true => exact iff_of_true (changeRow_writeOnly hw) (fun h => absurd h (by simp))
  | false =>
    rw [changeRow_eq_iff hw (hcomparable hb hkb hkb' hp hw) (hcomparable ha hka hka' hp hw)]
    exact ⟨fun h _ => h, fun h => h rfl⟩

end Rows

end Report

/-! ## Schemas whose reports disclose nothing -/

open Report

/-- Two pairs of states that differ in write-only values only have the same change rows. -/
def Schema.Undisclosed (s : Schema) : Prop :=
  ∀ before after before' after', Property.SameFields s.properties before before' →
    Property.SameFields s.properties after after' →
      changeRows (s.changes before after) = changeRows (s.changes before' after')

/-- A report discloses nothing exactly if what it shows holds no write-only values: masking reaches
the properties of the schema, and no property below them. -/
theorem Schema.undisclosed_iff (s : Schema) : s.Undisclosed ↔
    ∀ p ∈ s.properties, p.writeOnly = false →
      ∀ q ∈ s.properties, q.stateName = p.stateName → ¬q.HoldsSecrets := by
  constructor
  · intro h p hp hw q hq hname hsecrets
    obtain ⟨v, w, hdiffer, hapart⟩ := hsecrets.differ
    have hfields : Property.SameFields s.properties [(p.stateName, v)] [(p.stateName, w)] := by
      rw [← hname]
      exact .child hq hdiffer .nil
    have hfield (u : Value) : Value.field [(p.stateName, u)] p.stateName = u := by
      simp [Value.field, Entries.get?_cons]
    have hrows := changeRows_eq_iff.mp (h _ _ _ _ hfields hfields) p hp
    have hcomparable : Comparable (Value.field [(p.stateName, v)] p.stateName)
        (Value.field [(p.stateName, w)] p.stateName) := by
      rw [hfield, hfield]
      exact hapart.toComparable
    have halike := ((changeRow_eq_iff hw hcomparable hcomparable).mp hrows).1
    rw [hfield, hfield] at halike
    exact hapart.other halike.sameTree
  · intro h before after before' after' hb ha
    rw [changeRows_eq_iff]
    intro p hp
    cases hw : p.writeOnly with
    | true => exact changeRow_writeOnly hw
    | false =>
      have hfield {es fs : Entries Value} (hf : Property.SameFields s.properties es fs) :
          Value.field es p.stateName = Value.field fs p.stateName := by
        rcases hf.field p.stateName with heq | ⟨q, hq, hname, hsecrets⟩
        · exact heq
        · exact hsecrets.eq (h p hp hw q hq hname)
      rw [changeRow_change, changeRow_change, hfield hb, hfield ha]

def accountSchema : Schema :=
  ⟨[{ name := "account", kind := .object
      element := some ⟨[{ name := "name", kind := .string },
        { name := "token", kind := .string, writeOnly := true }], false⟩ }], false⟩

def accountState (token : String) : Entries Value :=
  [("account", .object [("name", .string "a"), ("token", .string token)])]

def accountSheet (text : String) : Sheet :=
  ⟨"Changes", [changeHeader,
    [.string "account", .string "UNCHANGED", .string text, .string text]]⟩

/-- Two runs that differ in the token only, and write the token into their reports. -/
theorem token_disclosed :
    Property.SameFields accountSchema.properties (accountState "A") (accountState "B") ∧
      Sheet.ofRows "Changes"
        (changeRows (accountSchema.changes (accountState "A") (accountState "A"))) =
          .ok (accountSheet "\x7b\"name\":\"a\",\"token\":\"A\"\x7d") ∧
      Sheet.ofRows "Changes"
        (changeRows (accountSchema.changes (accountState "B") (accountState "B"))) =
          .ok (accountSheet "\x7b\"name\":\"a\",\"token\":\"B\"\x7d") ∧
      changeRows (accountSchema.changes (accountState "A") (accountState "A")) ≠
        changeRows (accountSchema.changes (accountState "B") (accountState "B")) := by
  refine ⟨?_, rfl, rfl, by decide +kernel⟩
  have htoken : Property.SameButSecrets
      { name := "token", kind := .string, writeOnly := true } (.string "A") (.string "B") :=
    .writeOnly rfl _ _
  refine .child (List.mem_singleton_self _) (.object rfl (.same _ _ ?_)) .nil
  exact .child (List.mem_cons_of_mem _ (List.mem_singleton_self _)) htoken .nil

end Reconciliation
