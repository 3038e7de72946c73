import Consequence.Reading.Canonical
import Consequence.Reading.Prefix
import Consequence.Reporting

/-!
# A line that is being read

An open line is a row of a source with a caret in it. Reading from it moves the caret, whether the
reading succeeds or not, and turns failures into errors that name the place in the source.
-/

set_option autoImplicit false

namespace Consequence

/-- A row of a source that was read up to the caret. -/
structure OpenLine where
  source : Source
  row : Row
  caret : Caret
  deriving Repr

namespace OpenLine

variable {α : Type}

/-- A row before anything was read from it. -/
def ofRow (source : Source) (row : Row) : OpenLine :=
  ⟨source, row, { ahead := row.text }⟩

/-- A text that is read as one line, from byte `offset` and line `number` of a source on. -/
def ofText (id text : String) (offset number : Nat) : OpenLine :=
  ofRow ⟨id, text⟩ ⟨offset, number, text.toList⟩

/-- The error that a failure is in this line. -/
def errorOf (line : OpenLine) : Failure → Error
  | .located cause start stop => .located ⟨cause, line.row.span start stop, line.source⟩
  | .tooDeep limit found => .excess (.depth limit found)

/-- Runs a reader from the caret on. -/
def read (line : OpenLine) (reader : Reader α) : Except Error α × OpenLine :=
  match reader line.caret with
  | .ok a caret => (.ok a, { line with caret })
  | .error e caret => (.error (line.errorOf e), { line with caret })

/-- The warning about the characters that are still ahead. -/
def unread? (line : OpenLine) : Option Warning :=
  if line.caret.ahead.isEmpty then none
  else some {
    line := line.row.number
    column := line.caret.passed.length + 1
    ignored := String.ofList line.caret.ahead }

/-- What reading one clause gives: the formula or an error, a warning about input behind the formula,
and the line afterwards. -/
structure ClauseRead where
  result : Except Error Formula
  warning? : Option Warning
  line : OpenLine

/-- Reads one formula in prefix form and the blanks behind it. What then follows is not read. -/
def clause (line : OpenLine) (limits : Limits) : ClauseRead :=
  match line.read (Reader.clause limits.depth) with
  | (.ok f, after) => ⟨.ok f, after.unread?, after⟩
  | (.error e, after) => ⟨.error e, none, after⟩

/-- Reads one formula from an open line and warns of input behind it. -/
def formula (line : OpenLine) (limits : Limits) : Reporting Formula := do
  let read := line.clause limits
  if let some w := read.warning? then Reporting.warn w
  Reporting.ofExcept read.result

end OpenLine

end Consequence
