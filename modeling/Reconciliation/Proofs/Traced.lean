import Reconciliation.Proofs.Lists
import Reconciliation.Traced

/-! # Laws of traced results

A step that succeeds can be taken apart into its parts. Two steps are related if they record the
same events and end alike, in the same error or in related values.
-/
namespace Reconciliation.Traced

variable {ε α β γ δ : Type}

@[simp] theorem pure_bind (a : α) (f : α → Traced ε β) : (pure a >>= f) = f a := rfl

@[simp] theorem throw_bind (e : ε) (f : α → Traced ε β) : (throw e >>= f) = throw e := rfl

theorem ofExcept_ok_bind (a : α) (f : α → Traced ε β) : (ofExcept (.ok a) >>= f) = f a := rfl

theorem bind_pure_eq (x : Traced ε α) : (x >>= pure) = x := by
  obtain ⟨log, _ | a⟩ := x
  · rfl
  · change (⟨log ++ [], .ok a⟩ : Traced ε α) = _
    rw [List.append_nil]

instance : LawfulMonad (Traced ε) :=
  LawfulMonad.mk' (Traced ε) bind_pure_eq (fun _ _ => rfl) andThen_assoc

/-! ## Success -/

theorem except_bind {x : Except ε α} {f : α → Except ε β} {b : β} :
    (x >>= f) = .ok b ↔ ∃ a, x = .ok a ∧ f a = .ok b := by
  cases x with
  | error e => exact ⟨fun h => (nomatch h), fun ⟨_, h, _⟩ => (nomatch h)⟩
  | ok a => exact ⟨fun h => ⟨a, rfl, h⟩, fun ⟨_, h, hf⟩ => Except.ok.inj h ▸ hf⟩

theorem except_elim {o : Option α} {e : ε} {f : α → Except ε β} {b : β} :
    o.elim (.error e) f = .ok b ↔ ∃ a, o = some a ∧ f a = .ok b := by
  cases o with
  | none => exact ⟨fun h => (nomatch h), fun ⟨_, h, _⟩ => (nomatch h)⟩
  | some a => exact ⟨fun h => ⟨a, rfl, h⟩, fun ⟨_, h, hf⟩ => Option.some.inj h ▸ hf⟩

theorem except_mapError {ε' : Type} {f : ε → ε'} {x : Except ε α} {a : α} :
    x.mapError f = .ok a ↔ x = .ok a := by
  cases x <;> simp [Except.mapError]

theorem except_mapM {f : α → Except ε β} {xs : List α} {ys : List β} :
    xs.mapM f = .ok ys ↔ List.Forall₂ (fun x y => f x = .ok y) xs ys := by
  induction xs generalizing ys with
  | nil =>
    rw [List.mapM_nil, List.forall₂_nil_left_iff]
    exact ⟨fun h => (Except.ok.inj h).symm, fun h => congrArg _ h.symm⟩
  | cons x xs ih =>
    rw [List.mapM_cons, except_bind, List.forall₂_cons_left_iff]
    constructor
    · rintro ⟨y, hy, h⟩
      obtain ⟨zs, hzs, h⟩ := except_bind.mp h
      exact ⟨y, zs, hy, ih.mp hzs, (Except.ok.inj h).symm⟩
    · rintro ⟨y, zs, hy, hzs, rfl⟩
      exact ⟨y, hy, except_bind.mpr ⟨zs, ih.mpr hzs, rfl⟩⟩

theorem ok_bind {x : Traced ε α} {f : α → Traced ε β} {b : β} :
    (x >>= f).result = .ok b ↔ ∃ a, x.result = .ok a ∧ (f a).result = .ok b := by
  rw [result_bind]
  cases x.result with
  | error e => simp [Except.bind]
  | ok a => simp [Except.bind]

theorem ok_mapM {f : α → Traced ε β} {xs : List α} {ys : List β} :
    (xs.mapM f).result = .ok ys ↔ List.Forall₂ (fun x y => (f x).result = .ok y) xs ys := by
  induction xs generalizing ys with
  | nil =>
    rw [List.mapM_nil, result_pure, List.forall₂_nil_left_iff, Except.ok.injEq]
    exact ⟨Eq.symm, Eq.symm⟩
  | cons x xs ih =>
    rw [List.mapM_cons, ok_bind, List.forall₂_cons_left_iff]
    constructor
    · rintro ⟨y, hy, h⟩
      obtain ⟨zs, hzs, h⟩ := ok_bind.mp h
      exact ⟨y, zs, hy, ih.mp hzs, (Except.ok.inj h).symm⟩
    · rintro ⟨y, zs, hy, hzs, rfl⟩
      exact ⟨y, hy, ok_bind.mpr ⟨zs, ih.mpr hzs, rfl⟩⟩

theorem mapM_congr {f : α → Traced ε γ} {g : β → Traced ε γ} {xs : List α} {ys : List β}
    (h : List.Forall₂ (fun x y => f x = g y) xs ys) : xs.mapM f = ys.mapM g := by
  induction h with
  | nil => rfl
  | cons hxy _ ih => rw [List.mapM_cons, List.mapM_cons, hxy, ih]

theorem ok_mapError {ε' : Type} {f : ε → ε'} {x : Traced ε α} {a : α} :
    (x.mapError f).result = .ok a ↔ x.result = .ok a := by
  rw [mapError]
  exact except_mapError

def passes (test : α → Bool) : Except ε α → Bool
  | .error _ => false
  | .ok a => test a

theorem ok_of_passes {test : α → Bool} {x : Except ε α} (h : passes test x = true) :
    ∃ a, x = .ok a ∧ test a = true := by
  cases x with
  | error e => cases h
  | ok a => exact ⟨a, rfl, h⟩

/-! ## Failure -/

theorem error_bind {x : Except ε α} {f : α → Except ε β} {e : ε} :
    (x >>= f) = .error e ↔ x = .error e ∨ ∃ a, x = .ok a ∧ f a = .error e := by
  cases x with
  | error e' =>
    constructor
    · exact fun h => Or.inl (congrArg Except.error (Except.error.inj h))
    · rintro (h | ⟨_, h, -⟩)
      · exact congrArg Except.error (Except.error.inj h)
      · cases h
  | ok a =>
    constructor
    · exact fun h => Or.inr ⟨a, rfl, h⟩
    · rintro (h | ⟨b, hb, h⟩)
      · cases h
      · exact Except.ok.inj hb ▸ h

theorem error_mapError {ε' : Type} {f : ε → ε'} {x : Except ε α} {e : ε'} :
    x.mapError f = .error e ↔ ∃ e', x = .error e' ∧ f e' = e := by
  cases x <;> simp [Except.mapError]

theorem error_mapError_bind {ε' : Type} {f : ε → ε'} {x : Except ε α} {g : α → Except ε' β}
    {e : ε'} : (x.mapError f >>= g) = .error e ↔
      (∃ e', x = .error e' ∧ f e' = e) ∨ ∃ a, x = .ok a ∧ g a = .error e := by
  rw [error_bind, error_mapError]
  simp only [except_mapError]

theorem error_result_bind {x : Traced ε α} {f : α → Traced ε β} {e : ε} :
    (x >>= f).result = .error e ↔
      x.result = .error e ∨ ∃ a, x.result = .ok a ∧ (f a).result = .error e := by
  rw [result_bind]
  exact error_bind

/-- Every error that a step may end in passes a test. -/
def Errors (P : ε → Prop) (x : Except ε α) : Prop := ∀ e, x = .error e → P e

namespace Errors

variable {P : ε → Prop} {x : Except ε α} {f : α → Except ε β}

theorem ok (a : α) : Errors P (.ok a : Except ε α) := nofun

theorem error {e : ε} (h : P e) : Errors P (.error e : Except ε α) := by
  intro e' he
  exact Except.error.inj he ▸ h

theorem bind (hx : Errors P x) (hf : ∀ a, Errors P (f a)) : Errors P (x >>= f) := by
  intro e h
  rcases error_bind.mp h with h | ⟨a, -, h⟩
  · exact hx e h
  · exact hf a e h

theorem elim {o : Option α} {e : ε} (he : P e) (h : ∀ a, o = some a → Errors P (f a)) :
    Errors P (o.elim (.error e) f) := by
  cases o with
  | none => exact error he
  | some a => exact h a rfl

theorem mapError {ε' : Type} {g : ε' → ε} (h : ∀ e, P (g e)) (y : Except ε' α) :
    Errors P (y.mapError g) := by
  intro e he
  obtain ⟨e', -, rfl⟩ := error_mapError.mp he
  exact h e'

theorem mapM {g : β → Except ε α} {xs : List β} (h : ∀ x ∈ xs, Errors P (g x)) :
    Errors P (xs.mapM g) := by
  induction xs with
  | nil => exact ok []
  | cons x xs ih =>
    rw [List.mapM_cons]
    apply bind (h x List.mem_cons_self)
    intro a
    apply bind (ih fun y hy => h y (List.mem_cons_of_mem _ hy))
    intro as
    exact ok _

end Errors

def error? (x : Traced ε α) : Option ε :=
  match x.result with
  | .error e => some e
  | .ok _ => none

theorem error?_eq_some_iff {x : Traced ε α} {e : ε} : x.error? = some e ↔ x.result = .error e := by
  rw [error?]
  cases x.result <;> simp

theorem error?_eq_none_iff {x : Traced ε α} : x.error? = none ↔ ∃ a, x.result = .ok a := by
  rw [error?]
  cases x.result <;> simp

@[simp] theorem error?_pure (a : α) : (pure a : Traced ε α).error? = none := rfl

/-- The first of two errors, where the second does not depend on what the first step gives. -/
theorem error?_bind {x : Traced ε α} {f : α → Traced ε β} {e : Option ε}
    (h : ∀ a, x.result = .ok a → (f a).error? = e) : (x >>= f).error? = x.error?.or e := by
  rw [error?, result_bind, error?]
  cases hx : x.result with
  | error e' => rfl
  | ok a => exact h a hx

theorem error?_bind_pure (x : Traced ε α) (f : α → β) :
    (x >>= fun a => pure (f a)).error? = x.error? := by
  rw [error?_bind fun a _ => error?_pure (f a), Option.or_none]

theorem error?_mapM (f : α → Traced ε β) (xs : List α) :
    (xs.mapM f).error? = xs.findSome? fun x => (f x).error? := by
  induction xs with
  | nil => rfl
  | cons x xs ih =>
    rw [List.mapM_cons, Lists.findSome?_cons_or, ← ih]
    apply error?_bind
    intro y _
    exact error?_bind_pure _ _

/-! ## Events -/

def Records (P : Log.Event → Prop) (x : Traced ε α) : Prop := ∀ e ∈ x.log, P e

namespace Records

variable {P : Log.Event → Prop}

theorem pure (a : α) : Records P (Pure.pure a : Traced ε α) := by
  intro e he
  cases he

theorem throw (e : ε) : Records P (Traced.throw e : Traced ε α) := by
  intro e he
  cases he

theorem ofExcept (r : Except ε α) : Records P (Traced.ofExcept r) := by
  intro e he
  cases he

theorem record {e : Log.Event} (h : P e) : Records P (Traced.record e : Traced ε Unit) := by
  intro e' he
  obtain rfl := List.mem_singleton.mp he
  exact h

theorem bind {x : Traced ε α} {f : α → Traced ε β} (hx : Records P x) (hf : ∀ a, Records P (f a)) :
    Records P (x >>= f) := by
  obtain ⟨log, e | a⟩ := x
  · exact hx
  · intro event hevent
    rcases List.mem_append.mp (show event ∈ log ++ (f a).log from hevent) with h | h
    · exact hx event h
    · exact hf a event h

theorem mapM {f : α → Traced ε β} {xs : List α} (h : ∀ x ∈ xs, Records P (f x)) :
    Records P (xs.mapM f) := by
  induction xs with
  | nil => exact pure []
  | cons x xs ih =>
    obtain ⟨hx, hxs⟩ := List.forall_mem_cons.mp h
    rw [List.mapM_cons]
    apply bind hx
    intro y
    apply bind (ih hxs)
    intro ys
    exact pure _

end Records

def filterLog (keep : Log.Event → Bool) (x : Traced ε α) : Traced ε α :=
  ⟨x.log.filter keep, x.result⟩

theorem filterLog_bind (keep : Log.Event → Bool) (x : Traced ε α) (f : α → Traced ε β) :
    (x >>= f).filterLog keep = x.filterLog keep >>= fun a => (f a).filterLog keep := by
  obtain ⟨log, e | a⟩ := x
  · rfl
  · change (⟨(log ++ (f a).log).filter keep, (f a).result⟩ : Traced ε β) = _
    rw [List.filter_append]
    rfl

theorem filterLog_of_records {keep : Log.Event → Bool} {x : Traced ε α}
    (h : x.Records fun e => keep e = true) : x.filterLog keep = x := by
  rw [filterLog, List.filter_eq_self.mpr h]

/-! ## Related steps -/

/-- The same events, and the same error or related values. -/
inductive Related (R : α → β → Prop) : Traced ε α → Traced ε β → Prop
  | ok (log : List Log.Event) {a : α} {b : β} (h : R a b) : Related R ⟨log, .ok a⟩ ⟨log, .ok b⟩
  | error (log : List Log.Event) (e : ε) : Related R ⟨log, .error e⟩ ⟨log, .error e⟩

namespace Related

variable {R : α → β → Prop} {S : γ → δ → Prop}

theorem pure {a : α} {b : β} (h : R a b) :
    Related R (Pure.pure a : Traced ε α) (Pure.pure b) := .ok [] h

theorem throw (e : ε) : Related R (Traced.throw e) (Traced.throw e) := .error [] e

theorem refl {R : α → α → Prop} (h : ∀ a, R a a) (x : Traced ε α) : Related R x x := by
  obtain ⟨log, e | a⟩ := x
  · exact .error log e
  · exact .ok log (h a)

theorem imp {S : α → β → Prop} {x : Traced ε α} {y : Traced ε β} (hRS : ∀ a b, R a b → S a b)
    (h : Related R x y) : Related S x y := by
  cases h with
  | ok log hR => exact .ok log (hRS _ _ hR)
  | error log e => exact .error log e

theorem join {R : α → γ → Prop} {S : β → γ → Prop} {x : Traced ε α} {y : Traced ε β}
    {z : Traced ε γ} (hx : Related R x z) (hy : Related S y z) :
    Related (fun a b => ∃ c, R a c ∧ S b c) x y := by
  cases hx with
  | @ok log a c hR =>
    cases hy with
    | ok _ hS => exact .ok log ⟨c, hR, hS⟩
  | error log e =>
    cases hy with
    | error => exact .error log e

theorem bind {x : Traced ε α} {y : Traced ε β} {f : α → Traced ε γ} {g : β → Traced ε δ}
    (h : Related R x y) (hfg : ∀ a b, R a b → Related S (f a) (g b)) :
    Related S (x >>= f) (y >>= g) := by
  cases h with
  | error log e => exact .error log e
  | @ok log a b hab =>
    change Related S ⟨log ++ (f a).log, (f a).result⟩ ⟨log ++ (g b).log, (g b).result⟩
    have := hfg a b hab
    generalize f a = fa at this
    generalize g b = gb at this
    cases this with
    | ok more hS => exact .ok _ hS
    | error more e => exact .error _ e

theorem bind_same {x : Traced ε α} {f : α → Traced ε γ} {g : α → Traced ε δ}
    (h : ∀ a, Related S (f a) (g a)) : Related S (x >>= f) (x >>= g) := by
  apply (refl (fun _ => rfl) x : Related Eq x x).bind
  rintro a _ rfl
  exact h a

theorem mapM {f : α → Traced ε γ} {g : β → Traced ε δ} {xs : List α} {ys : List β}
    (h : List.Forall₂ (fun x y => Related S (f x) (g y)) xs ys) :
    Related (List.Forall₂ S) (xs.mapM f) (ys.mapM g) := by
  induction h with
  | nil => exact pure .nil
  | cons hxy _ ih =>
    rw [List.mapM_cons, List.mapM_cons]
    exact hxy.bind fun a b hab => ih.bind fun as bs hs => pure (.cons hab hs)

/-- Steps of which the one leaves the image of what the other leaves, item by item. -/
theorem mapM_map {f : α → Traced ε γ} {g : β → Traced ε δ} {i : γ → δ} {xs : List α} {ys : List β}
    (h : List.Forall₂ (fun x y => Related (fun c d => i c = d) (f x) (g y)) xs ys) :
    Related (fun cs ds => cs.map i = ds) (xs.mapM f) (ys.mapM g) := by
  apply (mapM h).imp
  intro cs ds hcs
  rwa [← List.forall₂_map_left_iff, List.forall₂_eq_eq_eq] at hcs

theorem mapError {ε' : Type} (f : ε → ε') {x : Traced ε α} {y : Traced ε β} (h : Related R x y) :
    Related R (x.mapError f) (y.mapError f) := by
  cases h with
  | ok log hR => exact .ok log hR
  | error log e => exact .error log (f e)

theorem result_ok {x : Traced ε α} {y : Traced ε β} (h : Related R x y) {a : α}
    (hx : x.result = .ok a) : ∃ b, y.result = .ok b ∧ R a b := by
  cases h with
  | error log e => cases hx
  | ok log hR => exact ⟨_, rfl, Except.ok.inj hx ▸ hR⟩

end Related

end Reconciliation.Traced
