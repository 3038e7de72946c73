import Consequence.CommandLine.Options
import Consequence.Report.ErrorReport

/-!
# Libraries of the program

What the program leaves to others: reading its arguments and drawing what it has to show. A run is given
its libraries, and hands them data that does not depend on how they are drawn.
-/

set_option autoImplicit false

namespace Consequence

/-- What others do for the program. -/
structure Libraries where
  /-- Reads the arguments, or ends the program in place of a check. -/
  options : List String → Except Exit Options
  /-- Draws a report on its source, if it can be written. -/
  report : ErrorReport → Source → Option String
  /-- Draws a table. -/
  table : Table → String
  /-- Writes fields as a document. -/
  document : List (String × FieldValue) → String

end Consequence
