import Reconciliation.Proofs.Files.Frame
import Reconciliation.Proofs.Json.RoundTrip
import Reconciliation.Run.Payload
import Reconciliation.State.File

/-! # State files read back

A stored state is loaded with its identifier, and with its values in ascending order of their keys.
-/
namespace Reconciliation

open Value (keysDistinct digitsWithin)

theorem FileTree.withLineFeeds_of_plain {cs : List Char} (h : Json.Plain cs) :
    withLineFeeds cs = cs := by
  induction cs with
  | nil => rfl
  | cons c cs ih =>
    obtain ⟨hc, hcs⟩ := List.forall_mem_cons.mp h
    have hr : c ≠ '\r' := by
      rintro rfl
      exact absurd hc (by decide)
    rw [withLineFeeds, ih hcs]
    · exact fun _ h => absurd h hr
    · exact fun h => absurd h hr

namespace ResourceState

def ordered (state : ResourceState) : ResourceState :=
  ⟨state.identifier, (Entries.mapValues Value.ordered state.values).sorted⟩

theorem keysDistinct_document {state : ResourceState}
    (h : keysDistinct (.object state.values) = true) : keysDistinct state.document = true := by
  rw [document, Value.keysDistinct_object]
  refine ⟨by simp, ?_⟩
  intro e he
  simp only [List.mem_cons, List.not_mem_nil, or_false] at he
  rcases he with rfl | rfl
  · cases state.identifier <;> rfl
  · exact h

theorem ordered_document (state : ResourceState) :
    state.document.ordered = state.ordered.document := by
  have hid : (state.identifier.elim Value.null Value.string).ordered =
      state.identifier.elim Value.null Value.string := by
    cases state.identifier <;> rfl
  rw [document, document, ordered, Value.ordered_object, Entries.mapValues_cons,
    Entries.mapValues_cons, Entries.mapValues_nil, hid, Value.ordered_object,
    Entries.sorted_of_ascending]
  exact List.pairwise_pair.mpr (show "id" ≤ "values" by decide)

theorem storedValues_object (path : Path) (es : Entries Value) :
    storedValues path (.object es) = .ok es := by
  cases es <;> rfl

theorem ofDocument_document (path : Path) (state : ResourceState) :
    ofDocument path state.document = .ok state := by
  obtain ⟨identifier, values⟩ := state
  have hvalues : Value.field [("id", identifier.elim Value.null Value.string),
      ("values", Value.object values)] "values" = .object values := rfl
  rw [document, ofDocument, hvalues, storedValues_object]
  cases identifier <;> rfl

theorem toList_text (state : ResourceState) :
    state.text.toList = style.text 0 state.document ++ ['\n'] := by
  rw [text, String.toList_append, Json.Style.print, String.toList_ofList]
  rfl

theorem text_of_ordered {a b : ResourceState} (h : a.ordered = b.ordered) : a.text = b.text := by
  have htext (c : ResourceState) :
      style.text 0 c.document = Json.Style.text ⟨false, true⟩ 0 c.ordered.document := by
    rw [Json.text_ordered rfl, ordered_document]
    rfl
  rw [← String.toList_inj, toList_text, toList_text, htext, htext, h]

theorem sameTree_ordered (state : ResourceState) :
    Value.SameTree (.object state.ordered.values) (.object state.values) := by
  have hordered := Value.SameTree.ordered (.object state.values)
  rwa [Value.ordered_object] at hordered

theorem ordered_ordered (state : ResourceState) : state.ordered.ordered = state.ordered := by
  have hvalues := state.sameTree_ordered
  rw [Value.SameTree, Value.ordered_object, Value.ordered_object, Value.object.injEq] at hvalues
  rw [ordered, hvalues]
  rfl

theorem plain_text (state : ResourceState) : Json.Plain state.text.toList := by
  rw [toList_text]
  exact Json.plain_append (Json.plain_text_value _ _ _) (by simp [Json.Plain])

theorem digitsWithin_document {limit : Option ℕ} {state : ResourceState}
    (h : digitsWithin limit (.object state.values) = true) :
    digitsWithin limit state.document = true := by
  rw [document, Value.digitsWithin_object]
  intro e he
  simp only [List.mem_cons, List.not_mem_nil, or_false] at he
  rcases he with rfl | rfl
  · cases state.identifier <;> rfl
  · exact h

theorem ofText_text (path : Path) {limit : Option ℕ} {state : ResourceState}
    (h : keysDistinct (.object state.values) = true)
    (hd : digitsWithin limit (.object state.values) = true) :
    ofText path state.text limit = .ok state.ordered := by
  have hread : Json.read state.text limit = .ok state.document.ordered := by
    rw [← String.ofList_toList (s := state.text), toList_text]
    exact Json.read_text_sorted rfl (keysDistinct_document h) (digitsWithin_document hd) _
      (by simp [Json.isSpace])
  rw [ofText, hread, ordered_document]
  exact ofDocument_document path state.ordered

theorem read_saved {state : ResourceState} {files : FileTree} {path : Path}
    (hs : (state.save files path).result = .ok ()) :
    (state.save files path).files.read path = .ok state.text := by
  rw [save, (FileTree.save_spec hs).read, FileTree.withLineFeeds_of_plain state.plain_text,
    String.ofList_toList]

theorem load_read {limit : Option ℕ} {state : ResourceState} {files : FileTree} {path : Path}
    (hread : files.read path = .ok state.text) (h : keysDistinct (.object state.values) = true)
    (hd : digitsWithin limit (.object state.values) = true) :
    load files path limit = .ok state.ordered := by
  rw [load, FileTree.has_of_read hread, hread]
  exact ofText_text path h hd

theorem load_saved {limit : Option ℕ} {state : ResourceState} {files : FileTree} {path : Path}
    (hs : (state.save files path).result = .ok ())
    (h : keysDistinct (.object state.values) = true)
    (hd : digitsWithin limit (.object state.values) = true) :
    load (state.save files path).files path limit = .ok state.ordered :=
  load_read (read_saved hs) h hd

/-- The values of a loaded state are those of its document, or there are none. -/
theorem everywhere_ofDocument {test : Value → Bool} (ht : Value.Lifts test)
    (hnull : test .null = true) {path : Path} {v : Value} {state : ResourceState}
    (hv : v.everywhere test = true) (h : ofDocument path v = .ok state) :
    Value.everywhere test (.object state.values) = true := by
  have hempty : Value.everywhere test (.object []) = true :=
    Value.everywhere_object.mpr ⟨ht.object _ (by simp), by simp⟩
  unfold ofDocument at h
  split at h
  · exact Except.ok.inj h ▸ hempty
  · rename_i es
    have hes := Value.everywhere_object.mp hv
    have hfield : (Value.field es "values").everywhere test = true :=
      Value.everywhere_field hnull hes.2 _
    generalize Value.field es "values" = w at h hfield
    cases hw : storedValues path w with
    | error e => rw [hw] at h; cases h
    | ok values =>
      rw [hw] at h
      have hvalues : Value.everywhere test (.object values) = true := by
        unfold storedValues at hw
        split at hw
        · exact Except.ok.inj hw ▸ hempty
        · split at hw
          · exact Except.ok.inj hw ▸ hfield
          · cases hw
      cases hid : storedIdentifier path (Value.field es "id") with
      | error e => rw [hid] at h; cases h
      | ok identifier =>
        rw [hid] at h
        exact Except.ok.inj h ▸ hvalues
  · cases h

/-- A test passes throughout a loaded state if it passes throughout whatever is read. -/
theorem everywhere_load {test : Value → Bool} (ht : Value.Lifts test) (hnull : test .null = true)
    {limit : Option ℕ}
    (hread : ∀ text v, Json.read text limit = .ok v → v.everywhere test = true)
    {files : FileTree} {path : Path} {state : ResourceState}
    (h : load files path limit = .ok state) :
    Value.everywhere test (.object state.values) = true := by
  unfold load at h
  split at h
  · cases h
  · exact Except.ok.inj h ▸ Value.everywhere_object.mpr ⟨ht.object _ (by simp), by simp⟩
  · split at h
    · rw [ofText] at h
      split at h
      · rename_i v hv
        exact everywhere_ofDocument ht hnull (hread _ v hv) h
      · cases h
      · cases h
    · cases h

variable {limit : Option ℕ} {files : FileTree} {path : Path} {state : ResourceState}

theorem keysDistinct_load (h : load files path limit = .ok state) :
    keysDistinct (.object state.values) = true :=
  everywhere_load Value.lifts_ownKeysDistinct rfl (fun _ _ => Json.keysDistinct_of_read) h

theorem digitsWithin_load (h : load files path limit = .ok state) :
    digitsWithin limit (.object state.values) = true :=
  everywhere_load (Value.lifts_ownDigitsWithin limit) rfl (fun _ _ => Json.digitsWithin_of_read) h

end ResourceState

namespace Payload

variable {files : FileTree} {path : Path} {es : Entries Value}

theorem read_of_load (h : load files path = .ok es) :
    ∃ text, Json.read text = .ok (.object es) := by
  unfold load at h
  split at h
  · rename_i text _
    unfold ofText at h
    split at h
    · rename_i fs hv
      exact ⟨text, Except.ok.inj h ▸ hv⟩
    · cases h
    · cases h
    · cases h
  · cases h

theorem keysDistinct_load (h : load files path = .ok es) : keysDistinct (.object es) = true := by
  obtain ⟨_, hread⟩ := read_of_load h
  exact Json.keysDistinct_of_read hread

theorem digitsWithin_load (h : load files path = .ok es) :
    digitsWithin Numeral.digitLimit (.object es) = true := by
  obtain ⟨_, hread⟩ := read_of_load h
  exact Json.digitsWithin_of_read hread

end Payload

end Reconciliation
