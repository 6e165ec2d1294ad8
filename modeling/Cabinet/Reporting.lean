import Cabinet.Notice

/-! Computations that report as they go: notices in order, and at the end a value or an
error. What was reported before an error stays reported. -/
namespace Cabinet

structure Reporting (ε α : Type) where
  outcome : Except ε α
  notices : List Notice := []

namespace Reporting
variable {ε ε' α β : Type}

protected def pure (a : α) : Reporting ε α :=
  { outcome := .ok a }

protected def bind (r : Reporting ε α) (f : α → Reporting ε β) : Reporting ε β :=
  match r.outcome with
  | .error e => { outcome := .error e, notices := r.notices }
  | .ok a =>
    let next := f a
    { outcome := next.outcome, notices := r.notices ++ next.notices }

instance : Monad (Reporting ε) where
  pure := Reporting.pure
  bind := Reporting.bind

/-- Report something. -/
def tell (notices : List Notice) : Reporting ε Unit :=
  { outcome := .ok (), notices := notices }

/-- An outcome that reports nothing. -/
def ofExcept (outcome : Except ε α) : Reporting ε α :=
  { outcome := outcome }

/-- The same computation, its error seen in a wider context. -/
def mapError (f : ε → ε') (r : Reporting ε α) : Reporting ε' α :=
  { outcome := r.outcome.mapError f, notices := r.notices }

/-! ### What comes of it -/

@[simp] theorem outcome_pure (a : α) : (pure a : Reporting ε α).outcome = .ok a :=
  rfl

@[simp] theorem outcome_bind (r : Reporting ε α) (f : α → Reporting ε β) :
    (r >>= f).outcome = r.outcome >>= fun a => (f a).outcome := by
  obtain ⟨outcome, _⟩ := r
  cases outcome <;> rfl

@[simp] theorem outcome_tell (notices : List Notice) :
    (tell notices : Reporting ε Unit).outcome = .ok () :=
  rfl

@[simp] theorem outcome_ofExcept (outcome : Except ε α) : (ofExcept outcome).outcome = outcome :=
  rfl

@[simp] theorem outcome_mapError (f : ε → ε') (r : Reporting ε α) :
    (r.mapError f).outcome = r.outcome.mapError f :=
  rfl

end Reporting

/-! ### Outcomes -/

section
variable {ε α β : Type} {x : Except ε α}

/-- Steps that succeed one after the other succeed each. -/
theorem bind_eq_ok {f : α → Except ε β} {b : β} :
    (x >>= f) = .ok b ↔ ∃ a, x = .ok a ∧ f a = .ok b := by
  cases x <;> simp [bind, Except.bind]

theorem map_eq_ok {f : α → β} {b : β} : f <$> x = .ok b ↔ ∃ a, x = .ok a ∧ f a = b := by
  cases x <;> simp [Functor.map, Except.map]

/-- Of two steps, the first to fail says how. -/
theorem bind_eq_error {f : α → Except ε β} {e : ε} :
    (x >>= f) = .error e ↔ x = .error e ∨ ∃ a, x = .ok a ∧ f a = .error e := by
  cases x <;> simp [bind, Except.bind]

theorem mapError_eq_ok {ε' : Type} {f : ε → ε'} {a : α} : x.mapError f = .ok a ↔ x = .ok a := by
  cases x with
  | error cause => exact iff_of_false nofun nofun
  | ok b => exact ⟨fun h => congrArg _ (Except.ok.inj h), fun h => congrArg _ (Except.ok.inj h)⟩

end
end Cabinet
