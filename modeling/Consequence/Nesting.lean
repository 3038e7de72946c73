/-!
# Nesting

Counts the forms that are open and refuses to open more than a limit allows. A refused form counts as
open all the same, until it is left.
-/

set_option autoImplicit false

namespace Consequence

/-- How many forms may be open and how many are. -/
structure Nesting where
  limit : Nat
  depth : Nat := 0
  deriving DecidableEq, Repr

namespace Nesting

/-- Opens a form. Gives the depth that was reached if it is beyond the limit. -/
def enter (nesting : Nesting) : Except Nat Unit × Nesting :=
  let deeper := { nesting with depth := nesting.depth + 1 }
  (if nesting.limit < deeper.depth then .error deeper.depth else .ok (), deeper)

/-- A form may be opened as long as fewer than the limit are open. -/
theorem enter_eq_ok_iff (nesting : Nesting) :
    nesting.enter.1 = .ok () ↔ nesting.depth < nesting.limit := by
  unfold enter
  by_cases h : nesting.limit < nesting.depth + 1
  · simp [h]; omega
  · simp [h]; omega

/-- Closes a form, if one is open. -/
def leave (nesting : Nesting) : Nesting :=
  { nesting with depth := nesting.depth - 1 }

end Nesting

end Consequence
