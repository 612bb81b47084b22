import Reconciliation.Proofs.Merge.Recognition
import Reconciliation.Proofs.Merge.StoredOrder
import Reconciliation.Proofs.Value.Text

/-! # A merged list is read as it was received

An element that is merged without loss is recognised, whatever was stored for it: the comparison
reads the same fields under the same names as the merge has written. So a list of such elements is
left in the order in which it is received again.
-/
namespace Reconciliation

open Merge

/-! ## Scalars that are stored as they are -/

/-- Whether a scalar is taken as it is: no fraction is cut off for an integer, and no integer is
rounded for a floating-point number. -/
def Kind.exact (kind : Kind) : Value → Bool
  | .float x => kind ≠ .integer || x.value?.all fun d => (Binary64.integer? d).isSome
  | .int n => kind ≠ .float || decide (Binary64.Fits (Dyadic.ofInt n))
  | _ => true

theorem Value.equals_of_integral {x : Binary64} {d : Dyadic} {n : Int} (hx : x.value? = some d)
    (hd : Binary64.integer? d = some n) : (Value.int n).equals (.float x) = true := by
  rw [equals, isNumber, hx, Binary64.integer?_eq_some_iff.mp hd, beq_self_eq_true]

theorem Merge.scalar_exact {name : String} {kind : Kind} {remote v : Value}
    (he : kind.exact remote = true) (hf : remote.nanFree = true)
    (h : scalar name kind remote = .ok v) : v.equals remote = true := by
  unfold scalar at h
  split at h
  case h_6 x =>
    -- an integer is wanted
    rw [Binary64.truncated?] at h
    cases hx : x.value? with
    | none =>
      rw [hx] at h
      cases h
    | some d =>
      rw [hx] at h
      obtain rfl := Except.ok.inj h
      have hint : (Binary64.integer? d).isSome = true := by
        simpa [Kind.exact, hx] using he
      obtain ⟨n, hn⟩ := Option.isSome_iff_exists.mp hint
      rw [Binary64.truncate_of_integer? hn]
      exact Value.equals_of_integral hx hn
  case h_8 n =>
    -- a floating-point number is wanted
    have hfits : Binary64.Fits (Dyadic.ofInt n) := by
      simpa [Kind.exact] using he
    rw [Binary64.ofInt?_of_fits hfits] at h
    obtain rfl := Except.ok.inj h
    exact beq_self_eq_true _
  all_goals cases h
  all_goals exact Value.equals_refl rfl hf

namespace Property

/-! ## Remote values that are stored as they are -/

/-- A remote value that is stored without loss: no collection of objects is read in it, all objects
that are read are there, and all numbers are exact. -/
inductive Complete : Property → Value → Prop
  | writeOnly {p : Property} {v : Value} (hw : p.writeOnly = true) : Complete p v
  | scalar {p : Property} {v : Value} (hk : p.kind.isPrimitive = true)
    (h : p.kind.exact v = true) : Complete p v
  | primitives {p : Property} {v : Value} (hk : p.isPrimitiveCollection = true) : Complete p v
  | object {p : Property} {v : Value} (hk : p.kind = .object) (hv : v.isNull = false)
    (h : ∀ c ∈ p.children, Complete c (Value.field v.entries c.name)) : Complete p v

structure CompleteElement (p : Property) (v : Value) : Prop where
  keysDistinct : v.keysDistinct = true
  nanFree : v.nanFree = true
  present : v.isNull = false
  fields : ∀ c ∈ p.children, c.Complete (Value.field v.entries c.name)

/-- No value that a merge of a complete one reads is changed, whatever it is merged with. -/
theorem Complete.along {p : Property} {remote : Value} (h : p.Complete remote)
    (hf : remote.nanFree = true) (stored : Value) : p.Along Kept remote stored := by
  induction h generalizing stored with
  | writeOnly hw => exact .writeOnly hw
  | scalar hk h =>
    exact along_primitive hk (Kept.primitive hk fun _ hv => Merge.scalar_exact h hf hv)
  | @primitives p v hk =>
    refine .mk (Kept.primitives hk) fun _ _ c hc => ?_
    rw [children_of_isPrimitiveCollection hk] at hc
    cases hc
  | @object p v hk hv _ ih =>
    refine .mk (Kept.present hk hv) fun pair hpair c hc => ?_
    rw [met, hk] at hpair
    obtain rfl := List.mem_singleton.mp hpair
    exact ih c hc (Value.nanFree_field_entries hf _) _

theorem CompleteElement.sameItem {p : Property} (hn : p.Throughout NamesDistinct)
    {remote stored v : Value} (h : p.CompleteElement remote)
    (hv : (p.mergeObject remote stored).result = .ok v) : p.sameItem v remote = true :=
  sameItem_of_kept hn h.keysDistinct h.nanFree h.present
    (fun c hc => (h.fields c hc).along (Value.nanFree_field_entries h.nanFree _) _) hv

/-- A merged element is recognised as what it was merged from. If no other one is taken for it, a
list that is received once more stays in its order. -/
theorem reorder_merged {p : Property} (hn : p.Throughout NamesDistinct) :
    (∀ remote stored v, p.CompleteElement remote → (p.mergeObject remote stored).result = .ok v →
      p.sameItem v remote = true) ∧
    ∀ received merged : List Value, (∀ r ∈ received, p.CompleteElement r) →
      List.Forall₂ (fun r m => ∃ l, (p.mergeObject r l).result = .ok m) received merged →
      (∀ (i j : Nat) (m r : Value), merged[i]? = some m → received[j]? = some r → i ≠ j →
        p.sameItem m r = false) →
      p.reorder (.array merged) (.array received) = .ok (.array received) := by
  refine ⟨fun _ _ _ h hv => h.sameItem hn hv, fun received merged hcomplete hmerged hother => ?_⟩
  have hsame : List.Forall₂ (fun m r => p.sameItem m r = true) merged received := by
    refine (Lists.forall₂_imp_of_mem hmerged fun r hr m _ hm => ?_).flip
    obtain ⟨l, hl⟩ := hm
    exact (hcomplete r hr).sameItem hn hl
  by_cases hp : p.shouldIgnoreOrder = true
  · rw [reorder_array hp, arranged_of_forall₂ (oneToOne_of_places hother) hsame]
  · rw [reorder, eq_false_of_ne_true hp]
    rfl

/-! ## Volumes that are received again -/

def sampleVolumes : Property :=
  { name := "volumes", kind := .list, ignoreOrder := true
    element := some ⟨[{ name := "volumeLabel", kind := .string },
      { name := "sizeInGb", kind := .integer },
      { name := "loadFactor", kind := .float },
      { name := "mountKey", kind := .string, writeOnly := true },
      { name := "zones", kind := .set, itemKind := some .string },
      { name := "ownerInfo", kind := .object,
        element := some ⟨[{ name := "teamName", kind := .string }], true⟩ }], false⟩ }

def receivedVolume (label : String) (size load : Value) : Value :=
  .object [("volumeLabel", .string label), ("sizeInGb", size), ("loadFactor", load),
    ("zones", .array [.string "x"]), ("ownerInfo", .object [("teamName", .string label)])]

def mergedVolume (label key : String) (size : Int) (load : Value) : Value :=
  .object [("volume_label", .string label), ("size_in_gb", .int size), ("load_factor", load),
    ("mount_key", .string key), ("zones", .array [.string "x"]),
    ("owner_info", .array [.object [("team_name", .string label)]])]

def sampleSize : Value := .float (.finite (Dyadic.ofInt 80) (by decide))

def sampleLoad : Value := .float (.finite (Dyadic.ofInt 2) (by decide))

def receivedVolumes : List Value :=
  [receivedVolume "a" sampleSize (.int 2), receivedVolume "b" (.int 40) .null]

def mergedVolumes : List Value :=
  [mergedVolume "a" "A" 80 sampleLoad, mergedVolume "b" "B" 40 .null]

theorem complete_receivedVolume {label : String} {size load : Value}
    (hsize : Kind.integer.exact size = true) (hload : Kind.float.exact load = true) :
    ∀ c ∈ sampleVolumes.children,
      c.Complete (Value.field (receivedVolume label size load).entries c.name) := by
  intro c hc
  simp only [sampleVolumes, children, Option.map_some, Option.getD_some, List.mem_cons,
    List.not_mem_nil, or_false] at hc
  rcases hc with rfl | rfl | rfl | rfl | rfl | rfl
  · exact .scalar rfl rfl
  · exact .scalar rfl hsize
  · exact .scalar rfl hload
  · exact .writeOnly rfl
  · exact .primitives rfl
  · refine .object rfl rfl fun c hc => ?_
    obtain rfl := List.mem_singleton.mp hc
    exact .scalar rfl rfl

theorem receivedVolumes_complete : ∀ r ∈ receivedVolumes, sampleVolumes.CompleteElement r := by
  intro r hr
  rcases List.mem_pair.mp hr with rfl | rfl <;>
    exact ⟨by decide +kernel, by decide +kernel, rfl,
      complete_receivedVolume (by decide +kernel) (by decide +kernel)⟩

/-- A size is received as a floating-point number and a load as an integer, and an owner is stored in
an array. Both volumes are recognised all the same. -/
theorem receivedVolumes_reordered :
    sampleVolumes.Throughout NamesDistinct ∧
      (∀ r ∈ receivedVolumes, sampleVolumes.CompleteElement r) ∧
      List.Forall₂ (fun r m => ∃ l, (sampleVolumes.mergeObject r l).result = .ok m)
        receivedVolumes mergedVolumes ∧
      sampleVolumes.sameItem (mergedVolume "a" "A" 80 sampleLoad)
        (receivedVolume "a" sampleSize (.int 2)) = true ∧
      sampleVolumes.reorder (.array mergedVolumes) (.array receivedVolumes) =
        .ok (.array receivedVolumes) := by
  have hnames : sampleVolumes.Throughout NamesDistinct := by decide +kernel
  have hfirst : (sampleVolumes.mergeObject (receivedVolume "a" sampleSize (.int 2))
      (.object [("mount_key", .string "A")])).result =
        .ok (mergedVolume "a" "A" 80 sampleLoad) := by
    decide +kernel
  have hsecond : (sampleVolumes.mergeObject (receivedVolume "b" (.int 40) .null)
      (.object [("mount_key", .string "B")])).result = .ok (mergedVolume "b" "B" 40 .null) := by
    decide +kernel
  have hmerged : List.Forall₂ (fun r m => ∃ l, (sampleVolumes.mergeObject r l).result = .ok m)
      receivedVolumes mergedVolumes := .cons ⟨_, hfirst⟩ (.cons ⟨_, hsecond⟩ .nil)
  obtain ⟨hsame, hstay⟩ := reorder_merged hnames
  have hother : ∀ (i j : Nat) (m r : Value), mergedVolumes[i]? = some m →
      receivedVolumes[j]? = some r → i ≠ j → sampleVolumes.sameItem m r = false := by
    rintro (_ | _ | i) (_ | _ | j) m r hm hr hne <;> cases hm <;> cases hr <;>
      first | exact absurd rfl hne | decide +kernel
  exact ⟨hnames, receivedVolumes_complete, hmerged,
    hsame _ _ _ (receivedVolumes_complete _ (List.mem_cons_self ..)) hfirst,
    hstay _ _ receivedVolumes_complete hmerged hother⟩

end Property

end Reconciliation
