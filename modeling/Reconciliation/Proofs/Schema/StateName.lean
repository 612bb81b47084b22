import Reconciliation.Proofs.Schema.WellFormed

/-! # Names that are stored as they are

A name of small ASCII letters, digits and underscores is its own form in snake case. So where all
names are written in that way and none is preferred, different names stay different.
-/
namespace Reconciliation

namespace StateName

def isSmall (c : Char) : Bool := c.isLower || c.isDigit || c = '_'

def isSnakeCase (name : String) : Bool := name.toList.all isSmall

theorem toNat_of_isSmall {c : Char} (h : isSmall c = true) :
    48 ≤ c.toNat ∧ c.toNat ≤ 57 ∨ c.toNat = 95 ∨ 97 ≤ c.toNat ∧ c.toNat ≤ 122 := by
  rw [isSmall, Bool.or_eq_true, Bool.or_eq_true] at h
  rcases h with (h | h) | h
  · obtain ⟨hlow, hhigh⟩ := Bool.and_eq_true_iff.mp h
    exact .inr (.inr ⟨of_decide_eq_true hlow, of_decide_eq_true hhigh⟩)
  · obtain ⟨hlow, hhigh⟩ := Bool.and_eq_true_iff.mp h
    exact .inl ⟨of_decide_eq_true hlow, of_decide_eq_true hhigh⟩
  · rw [of_decide_eq_true h]
    exact .inr (.inl rfl)

theorem not_upper_of_isSmall {c : Char} (h : isSmall c = true) :
    ¬(c.val ≥ 'A'.val ∧ c.val ≤ 'Z'.val) := by
  have hc := toNat_of_isSmall h
  rintro ⟨hlow, hhigh⟩
  have hlow : 65 ≤ c.toNat := hlow
  have hhigh : c.toNat ≤ 90 := hhigh
  omega

theorem isUpper_of_isSmall {c : Char} (h : isSmall c = true) : c.isUpper = false :=
  decide_eq_false (not_upper_of_isSmall h)

/-- No word starts inside a name without capitals. -/
theorem separated_of_isSmall {cs : List Char} (h : ∀ c ∈ cs, isSmall c = true)
    (before : Option Char) : separated before cs = cs := by
  induction cs generalizing before with
  | nil => rfl
  | cons c cs ih =>
    obtain ⟨hc, hcs⟩ := List.forall_mem_cons.mp h
    have hword : (before.any fun b => startsWord b c cs.head?) = false := by
      cases before with
      | none => rfl
      | some b => rw [Option.any_some, startsWord, isUpper_of_isSmall hc, Bool.false_and]
    rw [separated, hword, if_neg Bool.false_ne_true, ih hcs]
    rfl

theorem smallForm_of_isSmall {c : Char} (h : isSmall c = true) : Text.smallForm c = [c] := by
  have hc := toNat_of_isSmall h
  have hlower : c.toLower = c := dif_neg (not_upper_of_isSmall h)
  rw [Text.smallForm, if_pos (by omega), hlower]

theorem lowerFrom_of_isSmall {cs : List Char} (h : ∀ c ∈ cs, isSmall c = true)
    (before : List Char) : Text.lowerFrom before cs = cs := by
  induction cs generalizing before with
  | nil => rfl
  | cons c cs ih =>
    obtain ⟨hc, hcs⟩ := List.forall_mem_cons.mp h
    have hsigma : c ≠ 'Σ' := by
      rintro rfl
      cases hc
    rw [Text.lowerFrom, if_neg hsigma, smallForm_of_isSmall hc, ih hcs]
    rfl

theorem snakeCase_of_isSnakeCase {name : String} (h : isSnakeCase name = true) :
    snakeCase name = name := by
  have hsmall : ∀ c ∈ name.toList, isSmall c = true := List.all_eq_true.mp h
  have hhyphen : name.toList.map (fun c => if c = '-' then '_' else c) = name.toList := by
    conv_rhs => rw [← List.map_id name.toList]
    apply List.map_congr_left
    intro c hc
    have hne : c ≠ '-' := by
      rintro rfl
      cases hsmall _ hc
    rw [if_neg hne]
    rfl
  rw [snakeCase, separated_of_isSmall hsmall, hhyphen, Text.lower, String.toList_ofList,
    lowerFrom_of_isSmall hsmall, String.ofList_toList]

end StateName

namespace Property

/-- A property whose name is in snake case, and none other is preferred. -/
def StoredAsNamed (p : Property) : Prop :=
  p.preferredName = none ∧ StateName.isSnakeCase p.name = true

theorem StoredAsNamed.stateName {p : Property} (h : p.StoredAsNamed) : p.stateName = p.name := by
  rw [Property.stateName, h.1]
  exact StateName.snakeCase_of_isSnakeCase h.2

end Property

namespace Declaration

theorem nodup_names_of_property {scope : String} {wraps : Bool} {v : Value} {p : Property}
    (h : property scope wraps v = .ok p) : (p.children.map Property.name).Nodup := by
  obtain ⟨es, rfl, hdeclares⟩ := ok_property h
  cases he : p.element with
  | none =>
    rw [Property.children, he]
    exact List.nodup_nil
  | some n =>
    obtain ⟨inner, -, hassembles⟩ := hdeclares.assembles he
    rw [Property.children_of_element he]
    exact hassembles.sound.distinct

/-- Where all children are stored as they are named, their state names are different. -/
theorem namesDistinct_of_reaches {v : Value} {s : Schema} (h : schema v = .ok s) {p : Property}
    (hp : s.Reaches p) (hnamed : ∀ c ∈ p.children, c.StoredAsNamed) : p.NamesDistinct := by
  have hnames : p.children.map Property.stateName = p.children.map Property.name := by
    apply List.map_congr_left
    intro c hc
    exact (hnamed c hc).stateName
  rw [Property.NamesDistinct, hnames]
  exact (reaches_of_schema (fun _ _ _ _ => nodup_names_of_property) h hp).own

end Declaration

end Reconciliation
