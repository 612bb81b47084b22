import Reconciliation.Log

/-! # Results with a record of events -/
namespace Reconciliation

/-- A result or an error, and the events recorded on the way to it. -/
structure Traced (ε α : Type) where
  log : List Log.Event
  result : Except ε α

namespace Traced

variable {ε α β : Type}

def throw (e : ε) : Traced ε α := ⟨[], .error e⟩

def record (e : Log.Event) : Traced ε Unit := ⟨[e], .ok ()⟩

def ofExcept (r : Except ε α) : Traced ε α := ⟨[], r⟩

/-- Events of the second step follow those of the first; after an error there is none. -/
def andThen (x : Traced ε α) (f : α → Traced ε β) : Traced ε β :=
  match x.result with
  | .error e => ⟨x.log, .error e⟩
  | .ok a => ⟨x.log ++ (f a).log, (f a).result⟩

instance : Monad (Traced ε) where
  pure a := ⟨[], .ok a⟩
  bind := andThen

@[simp] theorem result_pure (a : α) : (pure a : Traced ε α).result = .ok a := rfl

@[simp] theorem log_pure (a : α) : (pure a : Traced ε α).log = [] := rfl

@[simp] theorem result_throw (e : ε) : (throw e : Traced ε α).result = .error e := rfl

@[simp] theorem log_throw (e : ε) : (throw e : Traced ε α).log = [] := rfl

@[simp] theorem result_record (e : Log.Event) : (record e : Traced ε Unit).result = .ok () := rfl

@[simp] theorem result_ofExcept (r : Except ε α) : (ofExcept r).result = r := rfl

@[simp] theorem result_bind (x : Traced ε α) (f : α → Traced ε β) :
    (x >>= f).result = x.result.bind fun a => (f a).result := by
  change (x.andThen f).result = _
  unfold andThen
  cases x.result <;> rfl

theorem andThen_assoc {γ : Type} (x : Traced ε α) (f : α → Traced ε β) (g : β → Traced ε γ) :
    (x.andThen f).andThen g = x.andThen fun a => (f a).andThen g := by
  obtain ⟨log, _ | a⟩ := x
  · rfl
  · simp only [andThen]
    cases (f a).result <;> simp

def mapError {ε' : Type} (f : ε → ε') (x : Traced ε α) : Traced ε' α :=
  ⟨x.log, x.result.mapError f⟩

end Traced

end Reconciliation
