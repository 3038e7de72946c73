import Consequence.Error

/-!
# Error reports

What is written about an error. An error at a place of a source is drawn as a report: a message, and the
source with a label on the stretch at fault. How that looks is up to whoever draws it; this module says
what is to be drawn.
-/

set_option autoImplicit false

namespace Consequence

/-- How severe a report is. -/
inductive Severity where
  | error
  deriving DecidableEq, Repr

/-- The colour of a label. -/
inductive Color where
  | red
  deriving DecidableEq, Repr

/-- A stretch of a source that a report points out, and what it says there. -/
structure Label where
  sourceId : String
  start : Nat
  stop : Nat
  message : String
  color : Color
  deriving DecidableEq, Repr

/-- The label covers the character in the place. Labels count characters. -/
def Label.Covers (label : Label) (place : Nat) : Prop :=
  label.start ≤ place ∧ place < label.stop

instance (label : Label) (place : Nat) : Decidable (label.Covers place) :=
  inferInstanceAs (Decidable (_ ∧ _))

/-- A report before it is drawn. It is headed by a place of a source and may end with some help. -/
structure ErrorReport where
  severity : Severity
  sourceId : String
  offset : Nat
  message : String
  label : Label
  help? : Option String
  deriving DecidableEq, Repr

/-- The report of an error at a place. The label takes over the span as it is. -/
def Diagnosis.report (d : Diagnosis) : ErrorReport :=
  let kind := match d.cause.fault with
    | .unreadable => "Parse error"
    | .invalid => "Invalid expression"
  { severity := .error
    sourceId := d.source.id
    offset := d.span.start
    message := s!"{kind}: {d.cause.message} (at {d.source.id}:{d.span.line}:{d.span.column})"
    label := {
      sourceId := d.source.id
      start := d.span.start
      stop := d.span.stop
      message := "here"
      color := .red }
    help? := d.cause.suggestion? }

@[simp] theorem Diagnosis.start_label_report (d : Diagnosis) :
    d.report.label.start = d.span.start := rfl

@[simp] theorem Diagnosis.stop_label_report (d : Diagnosis) : d.report.label.stop = d.span.stop := rfl

/-- What is written about an error. A report that cannot be drawn gives way to the message. -/
def Error.report (draw : ErrorReport → Source → Option String) : Error → String
  | .located d => (draw d.report d.source).getD (Error.located d).message
  | .excess e =>
    s!"Resource limit exceeded: {e.name}\n  Limit: {e.limitText}\n  Actual: {e.actualText}\n  "
      ++ e.suggestion
  | e => e.message

end Consequence
