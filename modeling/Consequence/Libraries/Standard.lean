import Consequence.CommandLine.Libraries
import Consequence.Libraries.Arguments
import Consequence.Libraries.Document
import Consequence.Libraries.Snippet
import Consequence.Libraries.TableLayout

/-!
# Libraries to run with

Stand-ins for the libraries that the program is linked with. They do what the program asks of these, and
nothing that is proved about the program depends on them.
-/

set_option autoImplicit false

namespace Consequence

/-- Arguments, reports without colours, framed tables and indented documents. -/
def Libraries.standard : Libraries where
  options := Options.ofArguments
  report := ErrorReport.draw
  table := Table.draw
  document := Document.render

end Consequence
