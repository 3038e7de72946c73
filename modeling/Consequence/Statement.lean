import Consequence.KnowledgeBase

/-!
# Statements

A statement is one well-formed clause whose entailment is asked for.
-/

set_option autoImplicit false

namespace Consequence

/-- A well-formed clause. -/
structure Statement where
  clause : Clause
  wellFormed : clause.formula.WellFormed

namespace Statement

/-- Accepts a well-formed clause from a source with the given text. -/
def ofClause (clause : Clause) (text : String) : Except Error Statement :=
  match h : clause.rejection? text with
  | some e => .error e
  | none => .ok ⟨clause, (clause.rejection?_eq_none_iff text).1 h⟩

/-- Accepts a formula that has no source. -/
def ofFormula (f : Formula) : Except Error Statement :=
  ofClause (.inMemory f) ""

/-- Reads a source that must hold exactly one clause. -/
def ofSource (source : Source) (limits : Limits) : Reporting Statement := do
  match ← source.clauses limits with
  | [clause] => Reporting.ofExcept (ofClause clause source.text)
  | clauses => throw (.clauseCount source.id clauses.length)

/-- The formula that is asked for. -/
def formula (statement : Statement) : Formula :=
  statement.clause.formula

end Statement

end Consequence
