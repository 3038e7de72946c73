import Consequence.Report.Outcome

/-!
# Options and exits

What a run of the program is given, and what it leaves behind.
-/

set_option autoImplicit false

namespace Consequence

/-- What a check is asked to do. -/
structure Options where
  rules : String
  knowledge : String
  statement : String
  output : Option String := none
  format : Format := .text
  verbose : Bool := false
  maxFreeSymbols : Option Nat := none
  deriving DecidableEq, Repr

/-- What a run leaves behind: its exit code and what it wrote to either output. -/
structure Exit where
  code : UInt8
  stdout : String := ""
  stderr : String := ""
  deriving DecidableEq, Repr

end Consequence
