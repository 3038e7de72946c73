import Consequence.Reading.OpenLine

/-!
# Clauses and sources

A source holds one clause a line; comments and blank lines are skipped. Loading stops at the first
line that cannot be read. Warnings that were given before are kept.
-/

set_option autoImplicit false

namespace Consequence

/-- A formula and the place it was read from. -/
structure Clause where
  formula : Formula
  sourceId : String
  span : Span
  deriving DecidableEq, Repr

/-- A clause that was not read from any source. -/
def Clause.inMemory (f : Formula) : Clause :=
  ⟨f, "<memory>", {}⟩

namespace Formula

/-- Reads a formula from standalone text in prefix form, within the default limits. -/
def ofText (text : String) : Reporting Formula :=
  (OpenLine.ofText "<input>" text 0 1).formula {}

/-- Reads a formula from text in canonical form. -/
def ofCanonical (text : String) (limits : Limits) : Except Error Formula :=
  ((OpenLine.ofText "<canonical>" text 0 1).read (Reader.canonical limits.depth)).1

end Formula

namespace Source

/-- Reads the clause of one row. -/
def clause (source : Source) (limits : Limits) (row : Row) : Reporting Clause := do
  let f ← (OpenLine.ofRow source row).formula limits
  return ⟨f, source.id, row.wholeSpan⟩

/-- Reads every clause of a source. -/
def clauses (source : Source) (limits : Limits) : Reporting (List Clause) := do
  let size := source.text.utf8ByteSize
  if limits.sourceBytes < size then
    throw (.excess (.sourceBytes limits.sourceBytes size))
  let read := (rows source.text.toList).filter (!·.isIdle)
  read.mapM (source.clause limits)

end Source

end Consequence
