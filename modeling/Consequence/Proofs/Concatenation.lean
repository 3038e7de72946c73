import Mathlib
import Consequence.Proofs.Reporting
import Consequence.Proofs.Rows

/-!
# Loading a text behind another one

A text that stands behind a line feed is read as it is read alone: all places move by the bytes and
the lines in front of it, and nothing else changes. The line feed may end a line that was open, or
make one terminator with a CR before it, or end an empty line.

* `rows_concat`: the rows with a clause.
* `OpenLine.clause_shift`, `Source.outcome_clause_shift`: one row at another place of another text.
* `Source.outcome_mapM_shift`: all rows of a source, up to the first one that cannot be read.
* `Source.outcome_concat`: clauses, errors and warnings of both texts.
* `Source.clauses_concat`: what loading both texts as one gives.
-/

set_option autoImplicit false

namespace Consequence

/-! ## Places -/

/-- How many terminators a text has: a LF is one, and so is a CR unless a LF follows it. -/
def terminatorCount : List Char → Nat
  | [] => 0
  | c :: text =>
    (if c = '\n' ∨ c = '\r' ∧ text.head? ≠ some '\n' then 1 else 0) + terminatorCount text

/-- How far a text stands behind the start of one that it is part of. -/
structure Shift where
  bytes : Nat
  lines : Nat
  deriving DecidableEq, Repr

/-- The row at its place in the longer text. -/
def Row.shift (row : Row) (shift : Shift) : Row :=
  { row with offset := row.offset + shift.bytes, number := row.number + shift.lines }

/-- The span at its place in the longer text. Columns count from the start of a line, so they stay. -/
def Span.shift (span : Span) (shift : Shift) : Span :=
  { span with
    start := span.start + shift.bytes
    stop := span.stop + shift.bytes
    line := span.line + shift.lines }

/-- The clause with its span in the longer text. -/
def Clause.shift (clause : Clause) (shift : Shift) : Clause :=
  { clause with span := clause.span.shift shift }

/-- The warning with its line in the longer text. -/
def Warning.shift (warning : Warning) (shift : Shift) : Warning :=
  { warning with line := warning.line + shift.lines }

namespace Error

/-- The error with its place in the longer text. -/
def shift (e : Error) (shift : Shift) : Error :=
  match e with
  | located d => located { d with span := d.span.shift shift }
  | excess found => excess found
  | clauseCount id found => clauseCount id found

/-- The error for a source of the same name with another text. -/
def withText (e : Error) (text : String) : Error :=
  match e with
  | located d => located { d with source := { d.source with text } }
  | excess found => excess found
  | clauseCount id found => clauseCount id found

theorem shift_zero (e : Error) : e.shift ⟨0, 0⟩ = e := by
  cases e <;> rfl

end Error

/-! ## Rows -/

theorem length_lines_lf (text : List Char) :
    (lines (text ++ ['\n'])).length = terminatorCount (text ++ ['\n']) := by
  induction text with
  | nil => rfl
  | cons c text ih =>
    have hne : lines (text ++ ['\n']) ≠ [] := lines_ne_nil (by simp)
    obtain ⟨line, others, hlines⟩ := List.exists_cons_of_ne_nil hne
    rw [List.cons_append, terminatorCount, ← ih]
    by_cases hlf : c = '\n'
    · subst hlf
      rw [lines_lf, List.length_cons, if_pos (.inl rfl), Nat.add_comm]
    by_cases hcr : c = '\r'
    · subst hcr
      by_cases hhead : (text ++ ['\n']).head? = some '\n'
      · -- the text starts with the LF that completes the terminator
        obtain ⟨rest, hrest⟩ := List.head?_eq_some_iff.1 hhead
        rw [hrest, lines_crlf, lines_lf]
        simp
      · rw [lines_cr_alone hhead, List.length_cons, if_pos (.inr ⟨rfl, hhead⟩), Nat.add_comm]
    · have hbreak : isBreak c = false := by simp [isBreak, hlf, hcr]
      rw [lines_cons hbreak hlines, hlines, if_neg (by simp [hlf, hcr]), Nat.zero_add]
      rfl

theorem numbered_shift (shift : Shift) (offset number : Nat) (ls : List Line) :
    numbered (offset + shift.bytes) (number + shift.lines) ls =
      (numbered offset number ls).map (·.shift shift) := by
  induction ls generalizing offset number with
  | nil => rfl
  | cons line ls ih =>
    rw [numbered, numbered, List.map_cons, ← ih, Nat.add_right_comm offset, Nat.add_right_comm number]
    rfl

/-- The rows with a clause are those of the first text and, moved, those of the second. -/
theorem rows_concat (first second : List Char) :
    (rows (first ++ '\n' :: second)).filter (!·.isIdle) =
      (rows first).filter (!·.isIdle) ++ ((rows second).filter (!·.isIdle)).map
        (·.shift ⟨byteLength first + 1, terminatorCount (first ++ ['\n'])⟩) := by
  have hsize : byteLength (first ++ ['\n']) = byteLength first + 1 := byteLength_append _ _
  have hmoved := numbered_shift ⟨byteLength first + 1, terminatorCount (first ++ ['\n'])⟩ 0 1
    (lines second)
  rw [Nat.zero_add] at hmoved
  rw [rows_eq_numbered, rows_eq_numbered, rows_eq_numbered, lines_append_lf, numbered_append,
    flatMap_chars_lines, hsize, length_lines_lf, Nat.zero_add, List.filter_append,
    filter_numbered_lf, hmoved, List.filter_map]
  rfl

/-! ## Reading a row elsewhere -/

section
variable (id text other : String) (shift : Shift) (row : Row) (limits : Limits)

/-- A failure is the same error elsewhere. -/
theorem OpenLine.errorOf_shift (caret there : Caret) (failure : Failure) :
    (OpenLine.errorOf ⟨⟨id, other⟩, row.shift shift, there⟩ failure) =
      ((OpenLine.errorOf ⟨⟨id, text⟩, row, caret⟩ failure).shift shift).withText other := by
  cases failure with
  | tooDeep limit found => rfl
  | located cause start stop =>
    simp only [errorOf, Error.shift, Error.withText, Row.span, Row.shift, Span.shift,
      Nat.add_right_comm]

/-- A row is read as its characters say, wherever it stands. -/
theorem OpenLine.clause_shift :
    ((OpenLine.ofRow ⟨id, other⟩ (row.shift shift)).clause limits).result =
        ((OpenLine.ofRow ⟨id, text⟩ row).clause limits).result.mapError
          (fun e => (e.shift shift).withText other) ∧
      ((OpenLine.ofRow ⟨id, other⟩ (row.shift shift)).clause limits).warning? =
        ((OpenLine.ofRow ⟨id, text⟩ row).clause limits).warning?.map (·.shift shift) := by
  have htext : (row.shift shift).text = row.text := rfl
  unfold clause read ofRow
  rw [htext]
  cases Reader.clause limits.depth { ahead := row.text } with
  | ok f after =>
    refine ⟨rfl, ?_⟩
    simp only [unread?]
    split <;> rfl
  | error failure after =>
    exact ⟨congrArg Except.error (errorOf_shift id text other shift row after after failure), rfl⟩

/-- An outcome that is moved to another place of another text. -/
def Reporting.outcomeAt {α β : Type} (shift : Shift) (other : String) (move : α → β)
    (outcome : Except Error α × Array Warning) : Except Error β × Array Warning :=
  ((outcome.1.map move).mapError fun e => (e.shift shift).withText other,
    outcome.2.map (·.shift shift))

theorem Source.outcome_clause_shift :
    (Source.clause ⟨id, other⟩ limits (row.shift shift)).outcome =
      Reporting.outcomeAt shift other (·.shift shift)
        (Source.clause ⟨id, text⟩ limits row).outcome := by
  have hspan : (row.shift shift).wholeSpan = row.wholeSpan.shift shift := by
    simp only [Row.wholeSpan, Row.span, Row.shift, Span.shift, Nat.add_right_comm]
  obtain ⟨hresult, hwarning⟩ := OpenLine.clause_shift id text other shift row limits
  rw [outcome_clause, outcome_clause, hspan]
  simp only [hresult, hwarning, Reporting.outcomeAt]
  rcases (OpenLine.ofRow ⟨id, text⟩ row).clause limits with ⟨_ | f, _ | w, line⟩ <;>
    simp [Except.map, Except.mapError, Clause.shift]

theorem Source.outcome_mapM_shift (rows : List Row) :
    ((rows.map (·.shift shift)).mapM (Source.clause ⟨id, other⟩ limits)).outcome =
      Reporting.outcomeAt shift other (·.map (·.shift shift))
        (rows.mapM (Source.clause ⟨id, text⟩ limits)).outcome := by
  induction rows with
  | nil => simp [Reporting.outcomeAt, Reporting.outcome_pure, Except.map, Except.mapError]
  | cons row rows ih =>
    rw [List.map_cons, Reporting.outcome_mapM_cons (appends_clause _ _),
      Reporting.outcome_mapM_cons (appends_clause _ _), outcome_clause_shift id text other, ih]
    rcases (Source.clause ⟨id, text⟩ limits row).outcome with ⟨e | c, given⟩
    · rfl
    · rcases (rows.mapM (Source.clause ⟨id, text⟩ limits)).outcome with ⟨e | cs, others⟩ <;>
        simp [Reporting.chain, Reporting.outcomeAt, Except.map, Except.mapError]

end

/-! ## Loading -/

namespace Source

variable {limits : Limits}

/-- The first text is read as if it were alone, and if it can be, the second one at its place. -/
theorem outcome_concat (id first second : String)
    (hsize : (first ++ "\n" ++ second).utf8ByteSize ≤ limits.sourceBytes) :
    (Source.clauses ⟨id, first ++ "\n" ++ second⟩ limits).outcome =
      Reporting.chain
        (Reporting.outcomeAt ⟨0, 0⟩ (first ++ "\n" ++ second) (·.map (·.shift ⟨0, 0⟩))
          (Source.clauses ⟨id, first⟩ limits).outcome)
        fun cs =>
          let shift : Shift := ⟨first.utf8ByteSize + 1, terminatorCount (first ++ "\n").toList⟩
          let rest := Reporting.outcomeAt shift (first ++ "\n" ++ second) (·.map (·.shift shift))
            (Source.clauses ⟨id, second⟩ limits).outcome
          (rest.1.map (cs ++ ·), rest.2) := by
  have hchars : (first ++ "\n" ++ second).toList = first.toList ++ '\n' :: second.toList := by simp
  have hlf : (first ++ "\n").toList = first.toList ++ ['\n'] := by simp
  have hsizes : (first ++ "\n" ++ second).utf8ByteSize =
      first.utf8ByteSize + 1 + second.utf8ByteSize := by
    rw [String.utf8ByteSize_append, String.utf8ByteSize_append]
    rfl
  have hrow (row : Row) : row.shift ⟨0, 0⟩ = row := rfl
  rw [outcome_clauses hsize, outcome_clauses (by simp only; omega),
    outcome_clauses (by simp only; omega), hchars, hlf, rows_concat,
    Reporting.outcome_mapM_append (appends_clause _ _), byteLength_toList,
    outcome_mapM_shift id second, ← outcome_mapM_shift id first]
  simp only [hrow, List.map_id']

theorem map_shift_zero (cs : List Clause) : cs.map (·.shift ⟨0, 0⟩) = cs :=
  List.map_id' cs

/-- **Loading distributes over concatenation**: two texts with a line feed between them load just if
both do, and give the clauses of the first and those of the second at their places. Where the first
one fails, so does the whole, with the same error; where only the second one fails, with its error at
its place. The errors then carry the whole text. -/
theorem clauses_concat (id first second : String)
    (hsize : (first ++ "\n" ++ second).utf8ByteSize ≤ limits.sourceBytes) :
    let whole := first ++ "\n" ++ second
    let shift : Shift := ⟨first.utf8ByteSize + 1, terminatorCount (first ++ "\n").toList⟩
    let loadedFirst := (Source.clauses ⟨id, first⟩ limits).outcome.1
    let loadedSecond := (Source.clauses ⟨id, second⟩ limits).outcome.1
    let loaded := (Source.clauses ⟨id, whole⟩ limits).outcome.1
    ((∃ cs, loaded = .ok cs) ↔ (∃ as, loadedFirst = .ok as) ∧ ∃ bs, loadedSecond = .ok bs) ∧
      (∀ as bs, loadedFirst = .ok as → loadedSecond = .ok bs →
        loaded = .ok (as ++ bs.map (·.shift shift))) ∧
      (∀ e, loadedFirst = .error e → loaded = .error (e.withText whole)) ∧
      (∀ as e, loadedFirst = .ok as → loadedSecond = .error e →
        loaded = .error ((e.shift shift).withText whole)) := by
  have hloaded := outcome_concat id first second hsize
  dsimp only at hloaded ⊢
  rw [hloaded]
  rcases (Source.clauses ⟨id, first⟩ limits).outcome with ⟨e | as, given⟩
  · simp [Reporting.chain, Reporting.outcomeAt, Except.map, Except.mapError, Error.shift_zero]
  · rcases (Source.clauses ⟨id, second⟩ limits).outcome with ⟨e | bs, others⟩ <;>
      simp [Reporting.chain, Reporting.outcomeAt, Except.map, Except.mapError, map_shift_zero]

/-- The CR behind the clause `p` and the line feed are one terminator, so the form that is open at the
end stands in line 3 of the whole. -/
theorem clauses_concat_unclosed :
    ("p\r" ++ "\n" ++ "# é\n(or é").utf8ByteSize ≤ ({} : Limits).sourceBytes ∧
      (Source.clauses ⟨"kb", "p\r"⟩ {}).outcome.1 = .ok [⟨.atom "p", "kb", ⟨0, 1, 1, 1⟩⟩] ∧
      (Source.clauses ⟨"kb", "# é\n(or é"⟩ {}).outcome.1 =
        .error (.located ⟨.unclosedForm, ⟨5, 11, 2, 1⟩, ⟨"kb", "# é\n(or é"⟩⟩) ∧
      (Source.clauses ⟨"kb", "p\r" ++ "\n" ++ "# é\n(or é"⟩ {}).outcome.1 =
        .error (.located ⟨.unclosedForm, ⟨8, 14, 3, 1⟩, ⟨"kb", "p\r\n# é\n(or é"⟩⟩) := by
  have hsize : ("p\r" ++ "\n" ++ "# é\n(or é").utf8ByteSize ≤ ({} : Limits).sourceBytes := by
    decide
  have hfirst : (Source.clauses ⟨"kb", "p\r"⟩ {}).outcome.1 =
      .ok [⟨.atom "p", "kb", ⟨0, 1, 1, 1⟩⟩] := by
    cbv
  have hsecond : (Source.clauses ⟨"kb", "# é\n(or é"⟩ {}).outcome.1 =
      .error (.located ⟨.unclosedForm, ⟨5, 11, 2, 1⟩, ⟨"kb", "# é\n(or é"⟩⟩) := by
    cbv
  exact ⟨hsize, hfirst, hsecond, (clauses_concat "kb" _ _ hsize).2.2.2 _ _ hfirst hsecond⟩

end Source

end Consequence
