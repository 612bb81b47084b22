import Reconciliation.Proofs.Merge.Conformance
import Reconciliation.Proofs.Merge.Reading

/-! # What is stored, received as a payload

The payload form of a stored tree has its entries under payload names and leaves out the write-only
ones. Merged with the tree it comes from, it gives that tree: every piece is renamed back, and meets
the stored piece that it was made of.
-/
namespace Reconciliation

open Merge
open Value (SameTree)

namespace Property

/-! ## The payload form -/

mutual

/-- What would be received where a value is stored. -/
def payloadForm (p : Property) (v : Value) : Value :=
  match p with
  | ⟨_, kind, _, _, element, _, _, _, _⟩ =>
    match kind, v with
    | .object, .array [x] => .array [elementForm element x]
    | .object, v => elementForm element v
    | .list, .array xs => .array (xs.map fun x => elementForm element x)
    | .set, .array xs => .array (xs.map fun x => elementForm element x)
    | _, v => v
termination_by structural p

def elementForm (element : Option Schema) (v : Value) : Value :=
  match element with
  | none => v
  | some ⟨children, _⟩ =>
    match v with
    | .object es => .object (entriesForm children es)
    | v => v
termination_by structural element

def entriesForm (children : List Property) (es : Entries Value) : Entries Value :=
  match children with
  | [] => []
  | c :: cs =>
    if c.writeOnly then entriesForm cs es
    else (c.name, payloadForm c (Value.field es c.stateName)) :: entriesForm cs es
termination_by structural children

end

def PayloadNamesDistinct (p : Property) : Prop := (p.children.map name).Nodup

instance : DecidablePred PayloadNamesDistinct := fun p =>
  inferInstanceAs (Decidable (p.children.map name).Nodup)

theorem payloadForm_wrapped {p : Property} (hk : p.kind = .object) (he : p.element.isSome = true)
    (wraps : Bool) (es : Entries Value) :
    p.payloadForm (wrapped wraps es) = wrapped wraps (entriesForm p.children es) := by
  obtain ⟨name, kind, writeOnly, ignoreOrder, element, itemKind, isIdentifier, preferred, key⟩ := p
  obtain ⟨⟨cs, w⟩, rfl⟩ := Option.isSome_iff_exists.mp he
  obtain rfl : kind = .object := hk
  cases wraps <;> rfl

theorem payloadForm_array {p : Property} (hk : p.kind = .list ∨ p.kind = .set) (xs : List Value) :
    p.payloadForm (.array xs) = .array (xs.map (elementForm p.element)) := by
  obtain ⟨name, kind, writeOnly, ignoreOrder, element, itemKind, isIdentifier, preferred, key⟩ := p
  rcases hk with hk | hk
  · obtain rfl : kind = .list := hk
    rfl
  · obtain rfl : kind = .set := hk
    rfl

theorem payloadForm_scalar {p : Property} (hk : p.kind.isPrimitive = true) (v : Value) :
    p.payloadForm v = v := by
  obtain ⟨name, kind, writeOnly, ignoreOrder, element, itemKind, isIdentifier, preferred, key⟩ := p
  cases kind <;> first | rfl | cases hk

theorem elementForm_object {p : Property} (he : p.element.isSome = true) (es : Entries Value) :
    elementForm p.element (.object es) = .object (entriesForm p.children es) := by
  obtain ⟨⟨cs, w⟩, hs⟩ := Option.isSome_iff_exists.mp he
  rw [children_of_element hs, hs]
  rfl

theorem payloadForm_primitives {p : Property} (hk : p.kind = .list ∨ p.kind = .set)
    (he : p.element.isSome = false) {v : Value} (h : v = .null ∨ ∃ xs, v = .array xs) :
    p.payloadForm v = v := by
  rcases h with rfl | ⟨xs, rfl⟩
  · obtain ⟨name, kind, writeOnly, ignoreOrder, element, itemKind, isIdentifier, preferred, key⟩ := p
    rcases hk with rfl | rfl <;> rfl
  · have hnone : p.element = none :=
      Option.isNone_iff_eq_none.mp (Option.isSome_eq_false_iff.mp he)
    have hitems : xs.map (elementForm none) = xs := List.map_id xs
    rw [payloadForm_array hk, hnone, hitems]

theorem mem_entriesForm {cs : List Property} {c : Property} (hc : c ∈ cs)
    (hw : c.writeOnly = false) (es : Entries Value) :
    (c.name, c.payloadForm (Value.field es c.stateName)) ∈ entriesForm cs es := by
  induction cs with
  | nil => cases hc
  | cons d ds ih =>
    rw [entriesForm]
    rcases List.mem_cons.mp hc with rfl | hc
    · rw [hw, if_neg Bool.false_ne_true]
      exact List.mem_cons_self
    · split
      · exact ih hc
      · exact List.mem_cons_of_mem _ (ih hc)

theorem keys_entriesForm_sublist (cs : List Property) (es : Entries Value) :
    (entriesForm cs es).keys.Sublist (cs.map name) := by
  induction cs with
  | nil => exact List.Sublist.slnil
  | cons c cs ih =>
    rw [entriesForm, List.map_cons]
    split
    · exact ih.cons _
    · exact ih.cons_cons _

theorem field_entriesForm {p : Property} (hu : p.PayloadNamesDistinct) {c : Property}
    (hc : c ∈ p.children) (hw : c.writeOnly = false) (es : Entries Value) :
    Value.field (entriesForm p.children es) c.name =
      c.payloadForm (Value.field es c.stateName) := by
  have hnodup := List.Nodup.sublist (keys_entriesForm_sublist p.children es) hu
  rw [Value.field, Entries.get?_of_mem hnodup (mem_entriesForm hc hw es)]
  rfl

/-! ## Trees that may be stored -/

mutual

inductive Fits : Property → Value → Prop
  | writeOnly {p : Property} {v : Value} (hw : p.writeOnly = true) : Fits p v
  | scalar {p : Property} {v : Value} (h : p.kind.Holds v) : Fits p v
  | primitives {p : Property} {v : Value} (hk : p.isPrimitiveCollection = true)
    (h : v = .null ∨ ∃ xs, v = .array xs) : Fits p v
  /-- The object is in a one-element array if and only if its schema asks for that. -/
  | object {p : Property} {es : Entries Value} (hk : p.kind = .object)
    (he : p.element.isSome = true) (h : FitsElement p (.object es)) : Fits p (wrapped p.wraps es)
  | list {p : Property} {vs : List Value} (hk : p.kind = .list) (he : p.element.isSome = true)
    (h : ∀ v ∈ vs, FitsElement p v) : Fits p (.array vs)
  /-- No two elements have one hash, or the same hash of their keys. -/
  | set {p : Property} {vs : List Value} (hk : p.kind = .set) (he : p.element.isSome = true)
    (hashes : (vs.map Value.hash).Nodup)
    (keys : p.correlationKey ≠ [] → (vs.map p.setHashes.stored).Nodup)
    (h : ∀ v ∈ vs, FitsElement p v) : Fits p (.array vs)

inductive FitsElement : Property → Value → Prop
  | mk {p : Property} {es : Entries Value} (keys : es.keys.Perm (p.children.map stateName))
    (values : ∀ c ∈ p.children, Fits c (Value.field es c.stateName)) : FitsElement p (.object es)

end

/-- The elements of a set are found by a key that is read, or nothing stored is read for them. -/
def SetRestored (p : Property) : Prop :=
  p.kind = .set → p.element.isSome = true → p.KeyedSet ∨ ∀ c ∈ p.children, c.Stateless

instance : DecidablePred KeyedSet := fun p =>
  inferInstanceAs (Decidable (p.kind = .set → p.element.isSome = true → p.correlationKey ≠ [] ∧
    ∀ field ∈ p.correlationKey,
      ∃ c ∈ p.children, c.name = field ∧ c.writeOnly = false ∧ c.kind.isPrimitive = true))

instance : DecidablePred SetRestored := fun p =>
  inferInstanceAs (Decidable (p.kind = .set → p.element.isSome = true →
    p.KeyedSet ∨ ∀ c ∈ p.children, c.Stateless))

/-! ## The payload form merged with its own tree -/

def Restores (p : Property) : Prop :=
  ∀ v, p.Fits v → ∃ w, (coerce p (p.payloadForm v) v).result = .ok w ∧ SameTree w v

theorem scalar_of_holds {kind : Kind} {v : Value} (h : kind.Holds v) (name : String) :
    Merge.scalar name kind v = .ok v := by
  cases h with
  | null hk => cases kind <;> first | rfl | cases hk
  | _ => rfl

theorem isPrimitive_of_holds {kind : Kind} {v : Value} (h : kind.Holds v) :
    kind.isPrimitive = true := by
  cases h with
  | null hk => exact hk
  | _ => rfl

section Elements

variable {p : Property} (hn : p.NamesDistinct) (hu : p.PayloadNamesDistinct)
  (he : p.element.isSome = true) (ih : ∀ c ∈ p.children, c.Restores)
include hn hu he ih

/-- Each child of an object is stored again under its state name. -/
theorem mergeObject_entriesForm {es : Entries Value} (h : p.FitsElement (.object es))
    (wraps : Bool) : ∃ fs, (p.mergeObject (wrapped wraps (entriesForm p.children es))
      (wrapped wraps es)).result = .ok (wrapped p.wraps fs) ∧ SameTree (.object fs) (.object es) := by
  obtain ⟨keys, values⟩ := h
  have hchild : ∀ c ∈ p.children, ∃ e : String × Value, e.1 = c.stateName ∧
      (coerce c (Value.field (entriesForm p.children es) c.name)
        (Value.field es c.stateName)).result = .ok e.2 ∧
      SameTree e.2 (Value.field es c.stateName) := by
    intro c hc
    by_cases hw : c.writeOnly = true
    · refine ⟨(c.stateName, Value.field es c.stateName), rfl, ?_, SameTree.refl _⟩
      rw [coerce_writeOnly hw]
      rfl
    · obtain ⟨w, hw', hsame⟩ := ih c hc _ (values c hc)
      refine ⟨(c.stateName, w), rfl, ?_, hsame⟩
      rw [field_entriesForm hu hc (eq_false_of_ne_true hw)]
      exact hw'
  obtain ⟨fs, hfs⟩ := Lists.exists_forall₂ hchild
  have hassembled : p.Assembled (entriesForm p.children es) es fs := by
    constructor
    · rw [Entries.keys, ← List.forall₂_eq_eq_eq, List.forall₂_map_left_iff,
        List.forall₂_map_right_iff]
      exact hfs.flip.imp fun _ _ h => h.1
    · exact hfs.imp fun _ _ h => h.2.1
  have hremote : remoteEntries p.name (wrapped wraps (entriesForm p.children es)) =
      .ok (entriesForm p.children es) := by
    cases wraps <;> rfl
  refine ⟨fs, ok_mergeObject.mpr ⟨he, _, fs, hremote, ?_, ?_⟩, ?_⟩
  · rw [entries_wrapped]
    exact hassembled
  · rw [hassembled.ofList_eq hn]
  have hnodup : (Entries.keys fs).Nodup := hassembled.keys ▸ hn
  have hnodup' : (Entries.keys es).Nodup := keys.nodup_iff.mpr hn
  apply SameTree.object hnodup hnodup'
  intro k
  by_cases hk : k ∈ p.children.map stateName
  · obtain ⟨c, hc, rfl⟩ := List.mem_map.mp hk
    obtain ⟨v, hv, hcoerce⟩ := hassembled.coerce_of_mem hc
    obtain ⟨e, -, hce, hsame⟩ := hchild c hc
    obtain rfl := Except.ok.inj (hcoerce.symm.trans hce)
    rw [Entries.get?_of_mem hnodup hv]
    have hstored : Entries.get? es c.stateName = some (Value.field es c.stateName) := by
      rw [Value.field]
      cases hget : Entries.get? es c.stateName with
      | none => exact absurd (keys.mem_iff.mpr hk) ((Entries.get?_eq_none_iff _ _).mp hget)
      | some v => rfl
    rw [hstored]
    exact congrArg some hsame
  · have hfresh : Entries.get? fs k = none :=
      (Entries.get?_eq_none_iff _ _).mpr (hassembled.keys ▸ hk)
    have hfresh' : Entries.get? es k = none :=
      (Entries.get?_eq_none_iff _ _).mpr fun hmem => hk (keys.mem_iff.mp hmem)
    rw [hfresh, hfresh']

/-- The elements of collections are never wrapped. -/
theorem mergeObject_elementForm (hk : p.kind ≠ .object) {v : Value} (h : p.FitsElement v) :
    ∃ w, (p.mergeObject (elementForm p.element v) v).result = .ok w ∧ SameTree w v := by
  have hwraps : p.wraps = false := by simp [Property.wraps, hk]
  cases h with
  | @mk _ es keys values =>
    obtain ⟨fs, hfs, hsame⟩ := mergeObject_entriesForm hn hu he ih (.mk keys values) false
    rw [hwraps] at hfs
    rw [elementForm_object he]
    exact ⟨.object fs, hfs, hsame⟩

theorem mergeList_payloadForm (hk : p.kind = .list) {vs : List Value}
    (h : ∀ v ∈ vs, p.FitsElement v) :
    ∃ w, (p.mergeList (.array (vs.map (elementForm p.element))) (.array vs)).result = .ok w ∧
      SameTree w (.array vs) := by
  have hobject : p.kind ≠ .object := by simp [hk]
  obtain ⟨ws, hws⟩ := Lists.exists_forall₂ fun v hv =>
    mergeObject_elementForm hn hu he ih hobject (h v hv)
  have hpaired : paired (vs.map (elementForm p.element)) vs =
      vs.map fun v => (elementForm p.element v, v) := by
    clear h hws
    induction vs with
    | nil => rfl
    | cons v vs hvs => rw [List.map_cons, paired, hvs, List.map_cons]
  refine ⟨.array ws, ok_mergeList.mpr ⟨_, ws, rfl, ?_, rfl⟩, SameTree.array ?_⟩
  · rw [Value.items, hpaired, List.forall₂_map_left_iff]
    exact hws.imp fun _ _ h => h.1
  · exact hws.flip.imp fun _ _ h => h.2

end Elements

/-! ## Sets -/

/-- If no two elements come to one hash, each of them is kept. -/
theorem ok_distinct_of_forall₂ {name : String} {merge : Value → Value → Merged Value}
    {f : Value → Value} {seen : List UInt32} {remote vs : List Value}
    (h : List.Forall₂ (fun x v => (merge x (f x)).result = .ok v) remote vs)
    (hn : (vs.map Value.hash).Nodup) (hseen : ∀ v ∈ vs, v.hash ∉ seen) :
    (distinct name merge f seen remote).result = .ok vs :=
  ok_distinct.mpr ⟨vs, h, (firsts_eq_self hn hseen).symm⟩

theorem storedField_name {p c : Property} (hu : p.PayloadNamesDistinct) (hc : c ∈ p.children) :
    storedField p.element c.name = c.stateName := by
  cases hs : p.element with
  | none =>
    rw [children, hs] at hc
    cases hc
  | some s =>
    rw [PayloadNamesDistinct, children_of_element hs] at hu
    rw [children_of_element hs] at hc
    have hfind : s.find? c.name = some c := Lists.find?_of_nodup hu hc
    rw [storedField, Option.bind_some, hfind]

theorem hash_elementForm {p : Property} (hu : p.PayloadNamesDistinct) (hk : p.kind = .set)
    (he : p.element.isSome = true) (hp : p.KeyedSet) {v : Value} (h : p.FitsElement v) :
    p.setHashes.stored v = p.setHashes.remote (elementForm p.element v) := by
  obtain ⟨hne, hkey⟩ := hp hk he
  cases h with
  | @mk _ es keys values =>
    rw [elementForm_object he, setHashes_keyed hne]
    simp only [storedKey, Value.correlationHash, List.map_map]
    congr 2
    apply List.map_congr_left
    intro field hfield
    obtain ⟨c, hc, rfl, hw, hprimitive⟩ := hkey field hfield
    rw [Function.comp_apply, storedField_name hu hc, field_entriesForm hu hc hw,
      payloadForm_scalar hprimitive]

section Sets

variable {p : Property} (hn : p.NamesDistinct) (hu : p.PayloadNamesDistinct)
  (he : p.element.isSome = true) (ih : ∀ c ∈ p.children, c.Restores)
include hn hu he ih

theorem mergeSet_payloadForm (hk : p.kind = .set) (hs : p.SetRestored) {vs : List Value}
    (hashes : (vs.map Value.hash).Nodup)
    (keys : p.correlationKey ≠ [] → (vs.map p.setHashes.stored).Nodup)
    (h : ∀ v ∈ vs, p.FitsElement v) :
    ∃ w, (p.mergeSet (.array (vs.map (elementForm p.element))) (.array vs)).result = .ok w ∧
      SameTree w (.array vs) := by
  have hobject : p.kind ≠ .object := by simp [hk]
  have helement : ∀ v ∈ vs, ∃ w, (p.mergeObject (elementForm p.element v)
      (counterpart p.setHashes vs (elementForm p.element v))).result = .ok w ∧ SameTree w v := by
    intro v hv
    obtain ⟨w, hw, hsame⟩ := mergeObject_elementForm hn hu he ih hobject (h v hv)
    refine ⟨w, ?_, hsame⟩
    rcases hs hk he with hkeyed | hstateless
    · -- The keys differ, so the key of an element finds that element.
      have hfind := Lists.find?_of_nodup (keys (hkeyed hk he).1) hv
      rw [counterpart, ← hash_elementForm hu hk he hkeyed (h v hv), hfind]
      exact hw
    · exact mergeObject_ignoresStored hstateless _ _ _ w hw
  obtain ⟨ws, hws⟩ := Lists.exists_forall₂ helement
  have hsame : List.Forall₂ SameTree ws vs := hws.flip.imp fun _ _ h => h.2
  have hhashes : ws.map Value.hash = vs.map Value.hash := by
    rw [← List.forall₂_eq_eq_eq, List.forall₂_map_left_iff, List.forall₂_map_right_iff]
    exact hsame.imp fun _ _ h => h.hash
  refine ⟨.array ws, ok_mergeSet.mpr ⟨_, ws, rfl, ?_, rfl⟩, SameTree.array hsame⟩
  refine ok_distinct_of_forall₂ ?_ (hhashes ▸ hashes) (by simp)
  rw [List.forall₂_map_left_iff]
  exact hws.imp fun _ _ h => h.1

end Sets

/-- A stored tree is a fixed point of merging its own payload form. -/
theorem coerce_payloadForm {p : Property} (hn : p.Throughout NamesDistinct)
    (hu : p.Throughout PayloadNamesDistinct) (hs : p.Throughout SetRestored) {v : Value}
    (h : p.Fits v) : ∃ w, (coerce p (p.payloadForm v) v).result = .ok w ∧ SameTree w v := by
  induction p generalizing v with
  | step p ih =>
    have ih : ∀ c ∈ p.children, c.Restores := by
      intro c hc v hv
      exact ih c hc (hn.children hc) (hu.children hc) (hs.children hc) hv
    by_cases hw : p.writeOnly = true
    · rw [coerce_writeOnly hw]
      exact ⟨v, rfl, SameTree.refl v⟩
    have hw := eq_false_of_ne_true hw
    simp only [ok_coerce]
    cases h with
    | writeOnly hw' => exact absurd (hw'.symm.trans hw) (by decide)
    | scalar hv =>
      have hk := isPrimitive_of_holds hv
      rw [payloadForm_scalar hk]
      exact ⟨v, .scalar hw hk (scalar_of_holds hv p.name), SameTree.refl v⟩
    | primitives hk hv =>
      obtain ⟨hkind, he, hitems⟩ := isPrimitiveCollection_iff.mp hk
      rw [payloadForm_primitives hkind he hv]
      refine ⟨v, .primitives hw hkind he hitems ?_, SameTree.refl v⟩
      rcases hv with rfl | ⟨xs, rfl⟩ <;> rfl
    | @object _ es hk he hv =>
      rw [payloadForm_wrapped hk he]
      obtain ⟨fs, hfs, hsame⟩ := mergeObject_entriesForm hn.own hu.own he ih hv p.wraps
      exact ⟨_, .object hw hk hfs, hsame.wrapped p.wraps⟩
    | list hk he hv =>
      rw [payloadForm_array (Or.inl hk)]
      obtain ⟨w, hw', hsame⟩ := mergeList_payloadForm hn.own hu.own he ih hk hv
      exact ⟨w, .list hw hk he hw', hsame⟩
    | set hk he hashes keys hv =>
      rw [payloadForm_array (Or.inr hk)]
      obtain ⟨w, hw', hsame⟩ := mergeSet_payloadForm hn.own hu.own he ih hk hs.own hashes keys hv
      exact ⟨w, .set hw hk he hw', hsame⟩

/-! ## A firewall with rules told apart by their names -/

def sampleRuleName : Property := { name := "ruleName", kind := .string }

def sampleSharedKey : Property := { name := "sharedKey", kind := .string, writeOnly := true }

def sampleRules : Property :=
  { name := "fwRules", kind := .set, correlationKey := ["ruleName"]
    element := some ⟨[sampleRuleName, sampleSharedKey], true⟩ }

def samplePort : Property := { name := "portNumber", kind := .integer }

def sampleFirewall : Property :=
  { name := "firewall", kind := .object, element := some ⟨[samplePort, sampleRules], true⟩ }

def storedRule (name key : Value) : Value := .object [("rule_name", name), ("shared_key", key)]

def storedRules : List Value :=
  [storedRule (.string "b") (.string "B"), storedRule (.string "a") .null]

/-- The entries are in the order of their keys, not in that of the declarations. -/
def storedFirewall : Value :=
  .array [.object [("fw_rules", .array storedRules), ("port_number", .int 7)]]

theorem fits_storedRule (name : String) (key : Value) :
    sampleRules.FitsElement (storedRule (.string name) key) := by
  have hname : sampleRuleName.stateName = "rule_name" := by decide +kernel
  have hkey : sampleSharedKey.stateName = "shared_key" := by decide +kernel
  constructor
  · change List.Perm _ [sampleRuleName.stateName, sampleSharedKey.stateName]
    rw [hname, hkey]
    exact List.Perm.refl _
  · intro c hc
    rcases List.mem_cons.mp hc with rfl | hc
    · rw [hname]
      exact .scalar (.string name)
    · obtain rfl := List.mem_singleton.mp hc
      exact .writeOnly rfl

theorem fits_storedFirewall : sampleFirewall.Fits storedFirewall := by
  have hport : samplePort.stateName = "port_number" := by decide +kernel
  have hrules : sampleRules.stateName = "fw_rules" := by decide +kernel
  refine .object (p := sampleFirewall) rfl rfl (.mk ?_ ?_)
  · change List.Perm _ [samplePort.stateName, sampleRules.stateName]
    rw [hport, hrules]
    exact List.Perm.swap _ _ _
  · intro c hc
    rcases List.mem_cons.mp hc with rfl | hc
    · rw [hport]
      exact .scalar (.integer 7)
    · obtain rfl := List.mem_singleton.mp hc
      rw [hrules]
      refine .set rfl rfl (by decide +kernel) (fun _ => by decide +kernel) ?_
      intro v hv
      rcases List.mem_cons.mp hv with rfl | hv
      · exact fits_storedRule _ _
      · obtain rfl := List.mem_singleton.mp hv
        exact fits_storedRule _ _

/-- The entries come in declared order, and each rule keeps its key. -/
theorem coerce_storedFirewall : ∃ w,
    (coerce sampleFirewall (.array [.object [("portNumber", .int 7), ("fwRules", .array
      [.object [("ruleName", .string "b")], .object [("ruleName", .string "a")]])]])
      storedFirewall).result = .ok w ∧ SameTree w storedFirewall := by
  have hform : sampleFirewall.payloadForm storedFirewall =
      .array [.object [("portNumber", .int 7), ("fwRules", .array
        [.object [("ruleName", .string "b")], .object [("ruleName", .string "a")]])]] := by
    decide +kernel
  have hnames : sampleFirewall.Throughout NamesDistinct := by decide +kernel
  have hpayload : sampleFirewall.Throughout PayloadNamesDistinct := by decide +kernel
  have hsets : sampleFirewall.Throughout SetRestored := by decide +kernel
  rw [← hform]
  exact coerce_payloadForm hnames hpayload hsets fits_storedFirewall

end Property

end Reconciliation
