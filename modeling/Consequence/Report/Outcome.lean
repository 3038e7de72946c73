import Consequence.Entailment

/-!
# Reports of a check

What is written about a check: the verdict as a line of text or as a document with the counts, and, on
request, the clauses in canonical form and a table of the counts. Documents and tables are drawn by
others.
-/

set_option autoImplicit false

namespace Consequence

/-- How the outcome is written. -/
inductive Format where
  | text
  | json
  deriving DecidableEq, Repr

/-- The value of a field of a document. -/
inductive FieldValue where
  | text (s : String)
  | number (n : Nat)
  | texts (items : List String)
  | truths (members : List (String × Bool))
  deriving DecidableEq, Repr

/-- On which side of its cell a text stands. -/
inductive Alignment where
  | left
  | right
  deriving DecidableEq, Repr

/-- A cell of a table. -/
structure Cell where
  text : String
  alignment : Alignment := .left
  deriving DecidableEq, Repr

/-- A table with a header. -/
structure Table where
  header : List Cell
  rows : List (List Cell)
  deriving DecidableEq, Repr

/-- A truth value in words. -/
def truthWord (b : Bool) : String :=
  if b then "true" else "false"

/-- A statement that was checked against a base, and what came out. -/
structure CheckedStatement where
  base : ValidBase
  statement : Statement
  entailment : Entailment

namespace CheckedStatement

/-- The clauses of the base in canonical form. -/
def baseTexts (checked : CheckedStatement) : List String :=
  checked.base.formulas.map (·.canonicalText)

/-- The fields of the document. The clauses are part of it on request. -/
def fields (checked : CheckedStatement) (verbose : Bool) : List (String × FieldValue) :=
  let e := checked.entailment
  [("verdict", .text e.verdict.text),
    ("assignments", .number e.tally.assignments.toNat),
    ("models", .number e.tally.models.toNat),
    ("query_true", .number e.tally.holding.toNat),
    ("query_false", .number e.tally.failing.toNat),
    ("free_symbols", .texts e.freeSymbols),
    ("seeded", .truths e.seed.toList)]
  ++ if verbose then
    [("knowledge_base", .texts checked.baseTexts),
      ("statement", .text checked.statement.formula.canonicalText)]
  else []

/-- The outcome in a format. -/
def render (checked : CheckedStatement) (drawFields : List (String × FieldValue) → String)
    (format : Format) (verbose : Bool) : String :=
  match format with
  | .text => checked.entailment.verdict.text ++ "\n"
  | .json => drawFields (checked.fields verbose) ++ "\n"

/-- The clauses and the statement in canonical form. -/
def inputs (checked : CheckedStatement) : String :=
  let indented (s : String) := "  " ++ s ++ "\n"
  s!"Knowledge base ({checked.base.clauses.length} clauses):\n"
    ++ String.join (checked.baseTexts.map indented)
    ++ "Statement:\n" ++ indented checked.statement.formula.canonicalText

/-- Items with commas between them, or a dash if there are none. -/
def orDash (items : List String) : String :=
  if items.isEmpty then "-" else ", ".intercalate items

/-- The counts as a table. -/
def counts (checked : CheckedStatement) : Table :=
  let e := checked.entailment
  let row (measure value : String) : List Cell := [⟨measure, .left⟩, ⟨value, .right⟩]
  { header := [⟨"Measure", .left⟩, ⟨"Value", .left⟩]
    rows := [
      row "Seeded symbols" (orDash (e.seed.toList.map fun (name, b) => name ++ "=" ++ truthWord b)),
      row "Free symbols" (orDash e.freeSymbols),
      row "Assignments" (toString e.tally.assignments.toNat),
      row "Models" (toString e.tally.models.toNat),
      row "Statement true" (toString e.tally.holding.toNat),
      row "Statement false" (toString e.tally.failing.toNat)] }

/-- The clauses in canonical form and the counts. -/
def details (checked : CheckedStatement) (drawTable : Table → String) : String :=
  checked.inputs ++ drawTable checked.counts ++ "\n"

end CheckedStatement

end Consequence
