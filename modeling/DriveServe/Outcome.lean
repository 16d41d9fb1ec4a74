import Mathlib.Init

set_option autoImplicit false

/-! Successful `Except` computations taken apart into their steps. -/

namespace Outcome

variable {ε ε' α β : Type}

/-- `Option::ok_or`. -/
def okOr (value : Option α) (error : ε) : Except ε α :=
  match value with
  | some a => .ok a
  | none => .error error

@[simp]
theorem okOr_eq_ok_iff (value : Option α) (error : ε) (a : α) :
    okOr value error = .ok a ↔ value = some a := by
  cases value <;> simp [okOr]

def ensure (condition : Prop) [Decidable condition] (error : ε) : Except ε Unit :=
  if condition then .ok () else .error error

@[simp]
theorem ensure_eq_ok_iff (condition : Prop) [Decidable condition] (error : ε) (u : Unit) :
    ensure condition error = .ok u ↔ condition := by
  unfold ensure
  split <;> simp_all

@[simp]
theorem bind_eq_ok_iff (first : Except ε α) (next : α → Except ε β) (b : β) :
    (first >>= next) = .ok b ↔ ∃ a, first = .ok a ∧ next a = .ok b := by
  cases first with
  | error e => simp [bind, Except.bind]
  | ok a => simp [bind, Except.bind]

@[simp]
theorem mapError_ok (f : ε → ε') (a : α) : (Except.ok a : Except ε α).mapError f = .ok a := rfl

@[simp]
theorem mapError_error (f : ε → ε') (e : ε) :
    (Except.error e : Except ε α).mapError f = .error (f e) := rfl

@[simp]
theorem mapError_eq_ok_iff (f : ε → ε') (first : Except ε α) (a : α) :
    first.mapError f = .ok a ↔ first = .ok a := by
  cases first <;> simp

@[simp]
theorem map_eq_ok_iff (f : α → β) (first : Except ε α) (b : β) :
    first.map f = .ok b ↔ ∃ a, first = .ok a ∧ f a = b := by
  cases first <;> simp [Except.map]

end Outcome
