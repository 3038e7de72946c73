/-!
# One step after another

Readers, updates and reports are computations with a state, which is there behind a success and behind a
failure. These lemmas take a sequence of two of them apart.

* `bind_ok`, `bind_error`: what the first step gives decides how it goes on.
* `bind_eq_ok_iff`: a sequence succeeds just if both steps do.
-/

set_option autoImplicit false

namespace Consequence

variable {ε σ α β : Type} {x : EStateM ε σ α} {f : α → EStateM ε σ β} {state after : σ} {a : α}
  {b : β}

theorem bind_ok (h : x state = .ok a after) : (x >>= f) state = f a after := by
  simp [bind, EStateM.bind, h]

theorem bind_error {e : ε} (h : x state = .error e after) : (x >>= f) state = .error e after := by
  simp [bind, EStateM.bind, h]

/-- What comes behind two steps that give the same is the same. -/
theorem bind_congr {y : EStateM ε σ α} (h : x state = y state) : (x >>= f) state = (y >>= f) state := by
  simp [bind, EStateM.bind, h]

theorem bind_eq_ok_iff :
    (x >>= f) state = .ok b after ↔
      ∃ a between, x state = .ok a between ∧ f a between = .ok b after := by
  constructor
  · intro h
    cases hx : x state with
    | ok a between => exact ⟨a, between, rfl, (bind_ok hx).symm.trans h⟩
    | error e between => exact absurd ((bind_error hx).symm.trans h) nofun
  · rintro ⟨a, between, hx, hf⟩
    exact (bind_ok hx).trans hf

end Consequence
