import Consequence.Formula.Forms
import Consequence.Formula.WellFormed
import Consequence.Limits
import Consequence.Text.Span

/-!
# Errors

Everything that can be wrong with a source, a formula or a check. An error holds its cause;
`Cause.message` and `Error.message` give the wording.
-/

set_option autoImplicit false

namespace Consequence

/-- What is wrong at one place of a source. -/
inductive Cause where
  /-- A character that no word may hold. -/
  | unexpectedChar (c : Char)
  /-- The text ends where a formula should start. -/
  | missingFormula
  /-- The text ends inside a form. -/
  | unclosedForm
  /-- A form without a word behind its parenthesis. -/
  | missingConnective
  /-- A form whose word names no connective. -/
  | unknownConnective (word : String)
  /-- More text behind a canonical formula. -/
  | trailingText (text : String)
  /-- A word between operands that names no connective. -/
  | notALink (word : String)
  /-- Two connectives in one group. -/
  | mixedLinks (first second : Connective)
  /-- One operand more than the connective of a group takes. -/
  | overfullGroup (op : Connective)
  /-- Another character where a form should close. -/
  | notAClose (c : Char)
  /-- A clause that breaks the grammar. -/
  | rejectedClause (violation : Violation) (clause : Formula)
  deriving DecidableEq, Repr

/-- Text that cannot be read, or a formula that was read and is not acceptable. -/
inductive Fault where
  | unreadable
  | invalid
  deriving DecidableEq, Repr

namespace Cause

/-- Unknown connectives and broken rules make a formula invalid; all else makes a text unreadable. -/
def fault : Cause → Fault
  | missingConnective | unknownConnective _ | rejectedClause _ _ => .invalid
  | _ => .unreadable

/-- What is wrong. -/
def message : Cause → String
  | unexpectedChar c => s!"Unexpected character '{c}'"
  | missingFormula => "Expected an expression, found end of input"
  | unclosedForm => "Unexpected end of input"
  | missingConnective => "Missing connective after '('"
  | unknownConnective word => s!"Unknown connective '{word}'"
  | trailingText text => s!"Unexpected trailing input '{text}'"
  | notALink word => s!"Expected a connective, found '{word}'"
  | mixedLinks first second =>
    s!"Mixed connectives '{first.linkWord}' and '{second.linkWord}' in one group"
  | overfullGroup op => s!"Connective '{op.linkWord}' takes {op.arity.text}"
  | notAClose c => s!"Expected ')', found '{c}'"
  | rejectedClause violation clause => s!"{violation.text} in clause {clause.prefixText}"

/-- What to write in its place. -/
def suggestion? : Cause → Option String
  | unexpectedChar _ => some "symbols and connectives may only contain letters, digits and '_'"
  | missingFormula | trailingText _ | notAClose _ => none
  | unclosedForm => some "add the missing ')'"
  | missingConnective | unknownConnective _ => some "expected one of: not, and, or, xor, if, iff"
  | notALink _ => some "expected one of: and, or, xor, impl, iff"
  | mixedLinks _ _ | overfullGroup _ => some "wrap each connective in its own parentheses"
  | rejectedClause violation _ => some violation.suggestion

end Cause

/-- A cause in its place. -/
structure Diagnosis where
  cause : Cause
  span : Span
  source : Source
  deriving DecidableEq, Repr

namespace Diagnosis

/-- The cause with its suggestion and its place. -/
def text (d : Diagnosis) : String :=
  let hint := d.cause.suggestion?.elim "" fun s => s!" (suggestion: {s})"
  s!"{d.cause.message}{hint} at {d.source.id}:{d.span.line}:{d.span.column}"

end Diagnosis

/-- Why a request fails. -/
inductive Error where
  /-- Something is wrong at one place of a source. -/
  | located (diagnosis : Diagnosis)
  /-- A limit was exceeded. -/
  | excess (excess : Excess)
  /-- A statement source does not hold one clause. -/
  | clauseCount (sourceId : String) (found : Nat)
  deriving DecidableEq, Repr

namespace Error

/-- The error in one line. -/
def message : Error → String
  | located d =>
    match d.cause.fault with
    | .unreadable => s!"Parse error: {d.text}"
    | .invalid => s!"Invalid expression: {d.text}"
  | excess e =>
    s!"Resource limit exceeded: {e.name} (limit: {e.limitText}, actual: {e.actualText}). " ++
      e.suggestion
  | clauseCount sourceId found =>
    s!"Input error: Statement source '{sourceId}' must contain exactly one clause, found {found}"

end Error

end Consequence
