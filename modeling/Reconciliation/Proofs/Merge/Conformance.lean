import Reconciliation.Proofs.Merge.Recognition
import Reconciliation.Proofs.Schema.Decision
import Reconciliation.Proofs.Value.Decision

/-! # Merged values conform to the schema

Whatever is sent and whatever is stored, a merge that succeeds stores what the schema declares: a
scalar of the declared type, an object with an entry for every child, arrays of such objects. Only
write-only parts are passed on as they are.
-/
namespace Reconciliation

open Merge

inductive Kind.Holds : Kind → Value → Prop
  | null {k : Kind} (h : k.isPrimitive = true) : Holds k .null
  | string (s : String) : Holds .string (.string s)
  | integer (n : Int) : Holds .integer (.int n)
  | float (x : Binary64) : Holds .float (.float x)
  | boolean (b : Bool) : Holds .boolean (.bool b)

namespace Property

mutual

/-- What may be stored for a property when a remote value is merged with a stored one. -/
inductive Conforms : Property → Value → Value → Value → Prop
  | writeOnly {p : Property} {remote stored : Value} (hw : p.writeOnly = true) :
    Conforms p remote stored stored
  | scalar {p : Property} {remote stored v : Value} (hw : p.writeOnly = false)
    (h : p.kind.Holds v) : Conforms p remote stored v
  | primitives {p : Property} {remote stored v : Value} (hw : p.writeOnly = false)
    (hk : p.isPrimitiveCollection = true) (h : v = .null ∨ ∃ xs, v = .array xs) :
    Conforms p remote stored v
  /-- The object is in a one-element array if and only if its schema asks for that. -/
  | object {p : Property} {remote stored : Value} {es : Entries Value} (hw : p.writeOnly = false)
    (hk : p.kind = .object) (h : ConformsElement p remote stored (.object es)) :
    Conforms p remote stored (wrapped p.wraps es)
  /-- An element for every place of the longer list. -/
  | list {p : Property} {remote stored : Value} {vs : List Value} (hw : p.writeOnly = false)
    (hk : p.kind = .list) (he : p.element.isSome = true)
    (size : vs.length = max remote.items.length stored.items.length)
    (h : ∀ (k : Nat) (v : Value), vs[k]? = some v →
      ConformsElement p ((remote.items[k]?).getD .null) ((stored.items[k]?).getD .null) v) :
    Conforms p remote stored (.array vs)
  /-- At most an element for every remote one, and no two of one hash. -/
  | set {p : Property} {remote stored : Value} {vs : List Value} (hw : p.writeOnly = false)
    (hk : p.kind = .set) (he : p.element.isSome = true)
    (size : vs.length ≤ remote.items.length) (hashes : (vs.map Value.hash).Nodup)
    (h : ∀ v ∈ vs, ConformsMember p remote stored v) : Conforms p remote stored (.array vs)

inductive ConformsElement : Property → Value → Value → Value → Prop
  | mk {p : Property} {remote stored : Value} {es : Entries Value}
    (keys : es.keys = p.children.map stateName)
    (values : ∀ c ∈ p.children, Conforms c (Value.field remote.entries c.name)
      (Value.field stored.entries c.stateName) (Value.field es c.stateName)) :
    ConformsElement p remote stored (.object es)

inductive ConformsMember : Property → Value → Value → Value → Prop
  | mk {p : Property} {remote stored r v : Value} (hr : r ∈ remote.items)
    (h : ConformsElement p r (counterpart p.setHashes stored.items r) v) :
    ConformsMember p remote stored v

end

end Property

namespace Merge

theorem holds_of_scalar {name : String} {kind : Kind} (hk : kind.isPrimitive = true)
    {remote v : Value} (h : scalar name kind remote = .ok v) : kind.Holds v := by
  unfold scalar at h
  split at h
  case h_1 => cases h
  case h_2 => exact Except.ok.inj h ▸ .null hk
  case h_3 => exact Except.ok.inj h ▸ .string _
  case h_4 => exact Except.ok.inj h ▸ .boolean _
  case h_5 => exact Except.ok.inj h ▸ .integer _
  case h_6 =>
    split at h
    · exact Except.ok.inj h ▸ .integer _
    · cases h
  case h_7 => exact Except.ok.inj h ▸ .float _
  case h_8 =>
    split at h
    · exact Except.ok.inj h ▸ .float _
    · cases h
  case h_9 => cases h

theorem null_or_array_of_primitives {name : String} {remote v : Value}
    (h : primitives name remote = .ok v) : v = .null ∨ ∃ xs, v = .array xs := by
  unfold primitives at h
  split at h
  · exact Or.inl (Except.ok.inj h).symm
  · exact Or.inr ⟨_, (Except.ok.inj h).symm⟩
  · cases h

/-- The elements of a merged set differ in their hashes, and in those seen before. -/
theorem nodup_hashes_of_distinct {name : String} {merge : Value → Value → Merged Value}
    {f : Value → Value} {seen : List UInt32} {remote vs : List Value}
    (h : (distinct name merge f seen remote).result = .ok vs) :
    (vs.map Value.hash).Nodup ∧ ∀ v ∈ vs, v.hash ∉ seen := by
  obtain ⟨ms, -, rfl⟩ := ok_distinct.mp h
  exact nodup_firsts seen ms

end Merge

namespace Property

def MergesConforming (p : Property) : Prop :=
  ∀ remote stored v, (coerce p remote stored).result = .ok v → p.Conforms remote stored v

section Elements

variable {p : Property} (hn : p.NamesDistinct) (ih : ∀ c ∈ p.children, c.MergesConforming)
include hn ih

theorem mergeObject_conforms {remote stored v : Value}
    (h : (p.mergeObject remote stored).result = .ok v) :
    ∃ es, v = wrapped p.wraps es ∧ p.ConformsElement remote stored (.object es) := by
  obtain ⟨-, r, es, hr, ha, rfl⟩ := ok_mergeObject.mp h
  obtain rfl := remoteEntries_ok hr
  refine ⟨es, ?_, ?_⟩
  · rw [ha.ofList_eq hn]
  · constructor
    · exact ha.keys
    · intro c hc
      exact ih c hc _ _ _ (ha.field_eq hn hc)

/-- The elements of collections are never wrapped. -/
theorem mergeElement_conforms (hk : p.kind ≠ .object) {remote stored v : Value}
    (h : (p.mergeObject remote stored).result = .ok v) : p.ConformsElement remote stored v := by
  obtain ⟨es, rfl, hes⟩ := mergeObject_conforms hn ih h
  have hwraps : p.wraps = false := by simp [Property.wraps, hk]
  rw [hwraps]
  exact hes

theorem mergeList_conforms (hw : p.writeOnly = false) (hk : p.kind = .list)
    (he : p.element.isSome = true) {remote stored v : Value}
    (h : (p.mergeList remote stored).result = .ok v) : p.Conforms remote stored v := by
  obtain ⟨rs, vs, hrs, hvs, rfl⟩ := ok_mergeList.mp h
  obtain rfl := remoteItems_ok hrs
  have hsize : vs.length = max remote.items.length stored.items.length := by
    rw [← hvs.length_eq, length_paired]
  have hobject : p.kind ≠ .object := by simp [hk]
  apply Conforms.list hw hk he hsize
  intro k v hv
  have hlt := (List.getElem?_eq_some_iff.mp hv).1
  have hpair := getElem?_paired (hsize ▸ hlt)
  obtain ⟨w, hw', hm⟩ := Lists.getElem?_left hvs hpair
  obtain rfl := Option.some.inj (hv.symm.trans hw')
  exact mergeElement_conforms hn ih hobject hm

theorem mergeSet_conforms (hw : p.writeOnly = false) (hk : p.kind = .set)
    (he : p.element.isSome = true) {remote stored v : Value}
    (h : (p.mergeSet remote stored).result = .ok v) : p.Conforms remote stored v := by
  obtain ⟨rs, vs, hrs, hvs, rfl⟩ := ok_mergeSet.mp h
  obtain rfl := remoteItems_ok hrs
  have hobject : p.kind ≠ .object := by simp [hk]
  apply Conforms.set hw hk he (length_of_distinct hvs) (nodup_hashes_of_distinct hvs).1
  intro v hv
  obtain ⟨r, hr, hm⟩ := mem_of_distinct hvs hv
  exact .mk hr (mergeElement_conforms hn ih hobject hm)

end Elements

/-- Where the state names are different at every level, a merge that succeeds stores what conforms
to the schema. -/
theorem coerce_conforms {p : Property} (hn : p.Throughout NamesDistinct) {remote stored v : Value}
    (h : (coerce p remote stored).result = .ok v) : p.Conforms remote stored v := by
  induction p generalizing remote stored v with
  | step p ih =>
    have ih : ∀ c ∈ p.children, c.MergesConforming := by
      intro c hc remote stored v hv
      exact ih c hc (hn.children hc) hv
    cases ok_coerce.mp h with
    | writeOnly hw => exact .writeOnly hw
    | object hw hk h =>
      obtain ⟨es, rfl, hes⟩ := mergeObject_conforms hn.own ih h
      exact .object hw hk hes
    | list hw hk he h => exact mergeList_conforms hn.own ih hw hk he h
    | set hw hk he h => exact mergeSet_conforms hn.own ih hw hk he h
    | primitives hw hk he hi h =>
      have hprimitive : p.isPrimitiveCollection = true := by
        rcases hk with hk | hk <;> simp_all [isPrimitiveCollection, Kind.isCollection]
      exact .primitives hw hprimitive (null_or_array_of_primitives h)
    | scalar hw hk h => exact .scalar hw (holds_of_scalar hk h)

/-- A wrapped gateway with a token that is kept, a list of routes and a set of zones. -/
def sampleGateway : Property :=
  { name := "gateway", kind := .object
    element := some ⟨[{ name := "hostName", kind := .string },
      { name := "apiToken", kind := .string, writeOnly := true },
      { name := "routes", kind := .list
        element := some ⟨[{ name := "portNumber", kind := .integer }], true⟩ },
      { name := "zones", kind := .set
        element := some ⟨[{ name := "zoneName", kind := .string }], true⟩ }], true⟩ }

/-- A route is cut to an integer, one that is stored only is emptied, and a zone that comes twice is
stored once. -/
theorem sampleGateway_conforms :
    sampleGateway.Conforms
      (.object [("hostName", .string "h"),
        ("routes", .array [.object [("portNumber", .float (Binary64.nearest (161 / 2)))]]),
        ("zones", .array [.object [("zoneName", .string "z")], .object [("zoneName", .string "z")]])])
      (.array [.object [("api_token", .int 7), ("routes", .array [.null, .string "odd"])]])
      (.array [.object [("host_name", .string "h"), ("api_token", .int 7),
        ("routes", .array [.object [("port_number", .int 80)], .object [("port_number", .null)]]),
        ("zones", .array [.object [("zone_name", .string "z")]])]]) := by
  have hnames : sampleGateway.Throughout NamesDistinct := by decide +kernel
  exact coerce_conforms hnames (by decide +kernel)

end Property

end Reconciliation
