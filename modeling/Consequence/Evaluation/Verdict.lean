/-!
# Verdicts

How a statement relates to a knowledge base, read off the number of models of the base in which the
statement holds and fails.
-/

set_option autoImplicit false

namespace Consequence

/-- What a run over all assignments counts: the assignments, the models of the base among them, and
the models in which the statement holds and fails. -/
structure Tally where
  assignments : UInt64 := 0
  models : UInt64 := 0
  holding : UInt64 := 0
  failing : UInt64 := 0
  deriving DecidableEq, Repr

/-- Counts one assignment. -/
def Tally.add (tally : Tally) (model holds : Bool) : Tally where
  assignments := tally.assignments + 1
  models := if model then tally.models + 1 else tally.models
  holding := if model && holds then tally.holding + 1 else tally.holding
  failing := if model && !holds then tally.failing + 1 else tally.failing

/-- How a statement relates to a knowledge base. -/
inductive Verdict where
  /-- The base has no model, so it entails the statement and its negation. -/
  | inconsistent
  /-- The statement holds in every model. -/
  | follows
  /-- The statement fails in every model. -/
  | refuted
  /-- The statement holds in some models and fails in others. -/
  | undecided
  deriving DecidableEq, Repr

namespace Verdict

/-- The verdict that the counts give. -/
def ofTally (tally : Tally) : Verdict :=
  match tally.holding == tally.models, tally.failing == tally.models with
  | true, true => inconsistent
  | true, false => follows
  | false, true => refuted
  | false, false => undecided

/-- The verdict in words. -/
def text : Verdict → String
  | inconsistent => "both true and false"
  | follows => "definitely true"
  | refuted => "definitely false"
  | undecided => "possibly true, possibly false"

end Verdict

end Consequence
