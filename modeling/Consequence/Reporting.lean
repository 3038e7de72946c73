import Consequence.Error

/-!
# Results with warnings

A computation that reports gives warnings on its way to a value or to an error. The warnings that
were given before an error are kept.
-/

set_option autoImplicit false

namespace Consequence

/-- Input that was left unread behind the formula of a line. -/
structure Warning where
  line : Nat
  column : Nat
  ignored : String
  deriving DecidableEq, Repr

/-- A computation that may give warnings and may fail. -/
abbrev Reporting := EStateM Error (Array Warning)

namespace Reporting

variable {α : Type}

/-- Gives a warning. -/
def warn (w : Warning) : Reporting Unit :=
  modify (·.push w)

/-- Goes on with a value or fails with an error. -/
def ofExcept : Except Error α → Reporting α
  | .ok a => return a
  | .error e => throw e

/-- Runs from no warnings, giving the result and all warnings up to it. -/
def outcome (x : Reporting α) : Except Error α × Array Warning :=
  match x #[] with
  | .ok a warnings => (.ok a, warnings)
  | .error e warnings => (.error e, warnings)

end Reporting

end Consequence
