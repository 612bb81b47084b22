import Reconciliation.Proofs.Schema.Shape

/-! # Deciding facts about schemas

Whether two schemas are one, and whether a condition that can be decided holds throughout a property.
-/
namespace Reconciliation

mutual

def Property.decEq (p q : Property) : Decidable (p = q) :=
  match p, q with
  | ⟨name, kind, writeOnly, ignoreOrder, element, itemKind, isIdentifier, preferred, key⟩,
    ⟨name', kind', writeOnly', ignoreOrder', element', itemKind', isIdentifier', preferred', key'⟩ =>
    match Property.decEqElement element element' with
    | isFalse h => isFalse fun heq => h (Property.mk.inj heq).2.2.2.2.1
    | isTrue h =>
      decidable_of_iff (name = name' ∧ kind = kind' ∧ writeOnly = writeOnly' ∧
          ignoreOrder = ignoreOrder' ∧ itemKind = itemKind' ∧ isIdentifier = isIdentifier' ∧
          preferred = preferred' ∧ key = key')
        (by rw [Property.mk.injEq]; simp [h])
termination_by structural p

def Property.decEqElement (e e' : Option Schema) : Decidable (e = e') :=
  match e, e' with
  | none, none => isTrue rfl
  | none, some _ => isFalse nofun
  | some _, none => isFalse nofun
  | some ⟨ps, wraps⟩, some ⟨qs, wraps'⟩ =>
    match Property.decEqList ps qs with
    | isFalse h => isFalse fun heq => h (Schema.mk.inj (Option.some.inj heq)).1
    | isTrue h => decidable_of_iff (wraps = wraps') (by simp [h])
termination_by structural e

def Property.decEqList (ps qs : List Property) : Decidable (ps = qs) :=
  match ps, qs with
  | [], [] => isTrue rfl
  | [], _ :: _ => isFalse nofun
  | _ :: _, [] => isFalse nofun
  | p :: ps, q :: qs =>
    match Property.decEq p q, Property.decEqList ps qs with
    | isTrue h, isTrue h' => isTrue (by rw [h, h'])
    | isFalse h, _ => isFalse fun heq => h (List.cons.inj heq).1
    | _, isFalse h => isFalse fun heq => h (List.cons.inj heq).2
termination_by structural ps

end

instance : DecidableEq Property := Property.decEq

instance : DecidableEq Schema := fun s t =>
  decidable_of_iff (s.properties = t.properties ∧ s.wraps = t.wraps) (by cases s; cases t; simp)

/-! ## Conditions on whole properties -/

namespace Property

mutual

def passes (test : Property → Bool) (p : Property) : Bool :=
  match p with
  | ⟨_, _, _, _, element, _, _, _, _⟩ => test p && elementPasses test element
termination_by structural p

def elementPasses (test : Property → Bool) (element : Option Schema) : Bool :=
  match element with
  | none => true
  | some ⟨children, _⟩ => allPass test children
termination_by structural element

def allPass (test : Property → Bool) (children : List Property) : Bool :=
  match children with
  | [] => true
  | p :: ps => passes test p && allPass test ps
termination_by structural children

end

theorem allPass_iff {test : Property → Bool} {ps : List Property} :
    allPass test ps = true ↔ ∀ p ∈ ps, passes test p = true := by
  induction ps with
  | nil => simp [allPass]
  | cons p ps ih => simp [allPass, ih]

theorem passes_iff {test : Property → Bool} {p : Property} :
    p.passes test = true ↔ test p = true ∧ ∀ c ∈ p.children, c.passes test = true := by
  obtain ⟨name, kind, writeOnly, ignoreOrder, element, itemKind, isIdentifier, preferred, key⟩ := p
  rw [passes, Bool.and_eq_true, children]
  cases element with
  | none => simp [elementPasses]
  | some s =>
    obtain ⟨cs, wraps⟩ := s
    rw [elementPasses, allPass_iff]
    rfl

theorem throughout_iff {P : Property → Prop} [DecidablePred P] {p : Property} :
    p.passes (fun p => decide (P p)) = true ↔ p.Throughout P := by
  induction p with
  | step p ih =>
    rw [passes_iff, decide_eq_true_iff]
    constructor
    · rintro ⟨hown, hchildren⟩
      exact .mk hown fun c hc => (ih c hc).mp (hchildren c hc)
    · intro h
      exact ⟨h.own, fun c hc => (ih c hc).mpr (h.children hc)⟩

instance {P : Property → Prop} [DecidablePred P] : DecidablePred (Throughout P) := fun _ =>
  decidable_of_iff _ throughout_iff

instance : DecidablePred NamesDistinct := fun p =>
  inferInstanceAs (Decidable (p.children.map stateName).Nodup)

end Property

instance : DecidablePred Schema.Distinct := fun s =>
  decidable_of_iff ((s.properties.map Property.stateName).Nodup ∧
      ∀ p ∈ s.properties, p.Throughout Property.NamesDistinct)
    ⟨fun h => ⟨h.1, h.2⟩, fun h => ⟨h.top, h.below⟩⟩

end Reconciliation
