import Consequence.Evaluation.Circuit
import Consequence.Evaluation.Odometer
import Consequence.Evaluation.Verdict
import Consequence.Statement

/-!
# Entailment

A statement is checked against a base by evaluating both under every assignment that agrees with the
seed of the base. Nothing is cut short: a check takes `2 ^ n` evaluations for `n` free symbols, which
the limit on free symbols guards.
-/

set_option autoImplicit false

namespace Consequence

/-- The outcome of a check. -/
structure Entailment where
  verdict : Verdict
  tally : Tally
  freeSymbols : List String
  seed : Seed

namespace ValidBase

/-- The symbols of the base and of the statement. -/
def symbolsWith (base : ValidBase) (statement : Statement) : Symbols :=
  base.symbols.extend statement.formula

/-- The symbols of the base and of the statement that are not pinned. -/
def freeSymbols (base : ValidBase) (statement : Statement) : List String :=
  (base.symbolsWith statement).names.toList.filter fun name => !base.seed.contains name

/-- Counts models over all assignments and reads off the verdict. -/
def tabulate (base : ValidBase) (statement : Statement) : Entailment :=
  let symbols := base.symbolsWith statement
  let premises := Circuit.conjunction (base.formulas.map (Circuit.ofFormula symbols))
  let goal := Circuit.ofFormula symbols statement.formula
  let odometer := Odometer.start symbols base.seed
  let tally := odometer.fold (fun t row => t.add (premises.eval row) (goal.eval row)) {}
  { verdict := .ofTally tally
    tally
    freeSymbols := odometer.free.map symbols.nameAt
    seed := base.seed }

/-- Classifies a statement, unless it has more free symbols than the limits of the base allow. -/
def judge (base : ValidBase) (statement : Statement) : Except Error Entailment :=
  let free := (base.freeSymbols statement).length
  match base.limits.freeSymbols.filter (· < free) with
  | some limit => .error (.excess (.freeSymbols limit free))
  | none => .ok (base.tabulate statement)

end ValidBase

namespace KnowledgeBase

/-- Validates the base and checks a statement against it. -/
def checkStatement (kb : KnowledgeBase) (statement : Statement) : Except Error Entailment := do
  (← kb.validate).judge statement

/-- Validates the base, then reads a statement and checks it against the base. -/
def check (kb : KnowledgeBase) (source : Source) : Reporting Entailment := do
  let base ← Reporting.ofExcept kb.validate
  let statement ← Statement.ofSource source kb.limits
  Reporting.ofExcept (base.judge statement)

end KnowledgeBase

end Consequence
