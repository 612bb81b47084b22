import Reconciliation.Proofs.Files.Null
import Reconciliation.Proofs.State.File

/-! # A state comes back from its file

A state is stored wherever a document can be stored. What is loaded from there is the same state, up
to the order in which entries are kept, and storing it changes nothing in the file.
-/
namespace Reconciliation

open Value (SameTree keysDistinct digitsWithin)

namespace ResourceState

variable {state : ResourceState} {files : FileTree} {path : Path}

theorem save_ok {d : Document} (h : (files.save path d).result = .ok ()) :
    (state.save files path).result = .ok () :=
  (FileTree.result_save_eq files path (.text state.text) d).trans h

theorem text_ordered (state : ResourceState) : state.ordered.text = state.text :=
  text_of_ordered state.ordered_ordered

/-- A state with the text that a file holds is stored there without a change. -/
theorem save_saved {other : ResourceState} (hs : (state.save files path).result = .ok ())
    (ht : other.text = state.text) :
    other.save (state.save files path).files path = .done (state.save files path).files := by
  have hcarries : FileTree.Carries (state.save files path).files path (.text other.text) := by
    rw [ht]
    exact FileTree.carries_of_save hs
  exact hcarries.save

/-- Where a document can be stored, a state is stored and loaded again with its identifier and with
the same tree of values, under any limit on digits that its integers keep to, and without a limit
whatever they are. Storing what was loaded writes the same text, so the file stays as it is. -/
theorem loaded_of_saved {d : Document} (hd : (files.save path d).result = .ok ())
    (hk : keysDistinct (.object state.values) = true) {limit : Option ℕ}
    (hi : digitsWithin limit (.object state.values) = true) :
    (state.save files path).result = .ok () ∧
      ∃ loaded, load (state.save files path).files path limit = .ok loaded ∧
        loaded.identifier = state.identifier ∧
        SameTree (.object loaded.values) (.object state.values) ∧
        loaded.text = state.text ∧
        loaded.save (state.save files path).files path =
          .done (state.save files path).files := by
  have hs : (state.save files path).result = .ok () := save_ok hd
  refine ⟨hs, state.ordered, load_saved hs hk hi, rfl, state.sameTree_ordered,
    state.text_ordered, ?_⟩
  exact save_saved hs state.text_ordered

/-! ## A state with values of all kinds -/

def mixedState : ResourceState where
  identifier := some "\r\n\"\\"
  values := [("whole", .int 1), ("real", .float (.nearest 1)),
    ("limits", .array [.float .negativeZero, .float .nan, .float (.infinity true),
      .float (.infinity false), .int (-10 ^ 30), .array [], .object []]),
    ("", .object [("b", .null), ("a", .array [.object [("é\n", .bool false), ("\x00", .null)]])])]

def noFiles : FileTree := ⟨⟨"/", []⟩, [], []⟩

/-- The state is stored in a new directory. Its whole number and its real number, which are equal,
come back apart. -/
theorem loaded_mixedState : ∃ loaded,
    load (mixedState.save noFiles (.ofString "new/state.json")).files (.ofString "new/state.json") =
      .ok loaded ∧
    loaded.identifier = some "\r\n\"\\" ∧
    (loaded.values.get? "whole").map Value.ordered = some (.int 1) ∧
    (loaded.values.get? "real").map Value.ordered = some (.float (.nearest 1)) ∧
    loaded.text = mixedState.text := by
  have hd : (noFiles.save (.ofString "new/state.json") (.text "")).result = .ok () := by
    decide +kernel
  obtain ⟨-, loaded, hload, hid, htree, htext, -⟩ := loaded_of_saved hd
    (show keysDistinct (.object mixedState.values) = true by decide +kernel)
    (show digitsWithin Numeral.digitLimit (.object mixedState.values) = true by decide +kernel)
  exact ⟨loaded, hload, hid, htree.get? "whole", htree.get? "real", htext⟩

end ResourceState

end Reconciliation
