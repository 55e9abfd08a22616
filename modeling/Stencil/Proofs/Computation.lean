/-!
Two computations one after the other: how they end if it is known how the first one ends, and what
the first one has given if both succeed.
-/

namespace Stencil

set_option autoImplicit true

theorem bind_eq_of_ok {x : EStateM ε σ α} {f : α → EStateM ε σ β} (h : x s = .ok a s₁) :
    (x >>= f) s = f a s₁ := by
  change EStateM.bind x f s = f a s₁
  rw [EStateM.bind, h]

theorem bind_eq_of_error {x : EStateM ε σ α} {f : α → EStateM ε σ β} (h : x s = .error e s₁) :
    (x >>= f) s = .error e s₁ := by
  change EStateM.bind x f s = .error e s₁
  rw [EStateM.bind, h]

theorem exists_of_bind_eq_ok {x : EStateM ε σ α} {f : α → EStateM ε σ β}
    (h : (x >>= f) s = .ok b s₂) : ∃ a s₁, x s = .ok a s₁ ∧ f a s₁ = .ok b s₂ := by
  cases hx : x s with
  | ok a s₁ =>
    rw [bind_eq_of_ok hx] at h
    exact ⟨a, s₁, rfl, h⟩
  | error e s₁ =>
    rw [bind_eq_of_error hx] at h
    cases h

end Stencil
