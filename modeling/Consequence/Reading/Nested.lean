import Consequence.Nesting
import Consequence.Reading.Caret

/-!
# Reading forms inside forms

Forms are read with a count of those that are open. A form is counted when its parenthesis is ahead, and
no longer when it was read or could not be. A form that is refused stays counted: the forms around it
are closed one by one, and the count is one higher than before.
-/

set_option autoImplicit false

namespace Consequence

/-- Reads something from a caret, with a count of the forms that are open. -/
abbrev NestedReader := EStateM Failure (Caret × Nesting)

namespace NestedReader

variable {α : Type}

/-- Runs a reader that opens no forms. -/
def ofReader (reader : Reader α) : NestedReader α := fun state =>
  match reader state.1 with
  | .ok a caret => .ok a (caret, state.2)
  | .error e caret => .error e (caret, state.2)

instance : MonadLift Reader NestedReader :=
  ⟨ofReader⟩

/-- Runs a reader within a limit, with no form open before it. -/
def run (limit : Nat) (reader : NestedReader α) : Reader α := fun caret =>
  match reader (caret, { limit }) with
  | .ok a state => .ok a state.1
  | .error e state => .error e state.1

/-- The caret. -/
def caret : NestedReader Caret :=
  return (← get).1

/-- Opens a form, reads it and closes it, whatever came of it. -/
def enclosed (form : NestedReader α) : NestedReader α := fun state =>
  match state.2.enter with
  | (.error found, deeper) => .error (.tooDeep deeper.limit found) (state.1, deeper)
  | (.ok (), deeper) =>
    match form (state.1, deeper) with
    | .ok a after => .ok a (after.1, after.2.leave)
    | .error e after => .error e (after.1, after.2.leave)

/-- Reads one formula: an atom, or a parenthesised form, which `form` reads. -/
def term (form : NestedReader Formula) : NestedReader Formula := do
  Reader.skipBlanks
  match ← Reader.peek with
  | none =>
    let here ← caret
    Reader.fail .missingFormula here.position here.position
  | some c => if c = '(' then enclosed form else return .atom (← Reader.word)

end NestedReader

end Consequence
