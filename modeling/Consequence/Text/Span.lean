import Consequence.Text.Line

/-!
# Spans

A span names a stretch of a source by its bytes and, for people, by the line and the column where it
starts. Lines and columns count from 1 and columns count characters.
-/

set_option autoImplicit false

namespace Consequence

/-- A stretch of a source. All four numbers are 0 where there is no source. -/
structure Span where
  start : Nat := 0
  stop : Nat := 0
  line : Nat := 0
  column : Nat := 0
  deriving DecidableEq, Repr

namespace Row

/-- The span between two byte positions of the row. -/
def span (row : Row) (start stop : Nat) : Span where
  start := row.offset + start
  stop := row.offset + stop
  line := row.number
  column := charsBefore row.text start + 1

/-- The span of the whole row. -/
def wholeSpan (row : Row) : Span :=
  row.span 0 (byteLength row.text)

end Row

/-- A named text that clauses are read from. -/
structure Source where
  id : String
  text : String
  deriving DecidableEq, Repr

end Consequence
