import Mathlib
import Consequence.Proofs.Failures
import Consequence.Proofs.Loading
import Consequence.Proofs.Rows

/-!
# Where errors point

Positions are counted three times: in the line by the readers, in the text by the offset of the line,
and in characters for the column. They agree.

* `Row.liesIn_of_rows`: a row is a stretch of its text and is numbered by the rows before it.
* `Row.LiesIn.bytes_span`: a span in a row names bytes of the text.
* `Row.pointsInto_span`: what is marked in a row is marked in the text.
* `Source.clause_eq_error_iff_located`, `Source.clause_eq_error_located`: what is wrong with a row is what
  fails in reading its text, and is marked in the row.
* `Source.diagnosis_of_clauses`: where loading fails at a place, the place is in the first row that
  cannot be read.
-/

set_option autoImplicit false

namespace Consequence

/-! ## Rows in their text -/

/-- The row is the stretch of the text that starts at its offset. -/
def Row.LiesIn (row : Row) (text : List Char) : Prop :=
  ∃ front back, text = front ++ (row.text ++ back) ∧ row.offset = byteLength front

theorem numbered_eq_append {ls : List Line} {offset number : Nat} {before after : List Row} {row : Row}
    (h : numbered offset number ls = before ++ row :: after) :
    row.number = number + before.length ∧
      ∃ others line rest, ls = others ++ line :: rest ∧ row.text = line.text ∧
        row.offset = offset + byteLength (others.flatMap Line.chars) := by
  induction ls generalizing offset number before with
  | nil => simp [numbered] at h
  | cons line ls ih =>
    cases before with
    | nil =>
      obtain ⟨rfl, -⟩ := List.cons.inj h
      exact ⟨rfl, [], line, ls, rfl, rfl, by simp⟩
    | cons first before =>
      obtain ⟨-, hrest⟩ := List.cons.inj h
      obtain ⟨hnumber, others, last, rest, rfl, htext, hoffset⟩ := ih hrest
      refine ⟨by rw [hnumber, List.length_cons]; omega, line :: others, last, rest, rfl, htext, ?_⟩
      rw [hoffset, List.flatMap_cons, byteLength_append, Nat.add_assoc]

theorem Row.liesIn_of_rows {text : List Char} {before after : List Row} {row : Row}
    (h : rows text = before ++ row :: after) :
    row.number = before.length + 1 ∧ row.LiesIn text := by
  rw [rows_eq_numbered] at h
  obtain ⟨hnumber, others, line, rest, hlines, htext, hoffset⟩ := numbered_eq_append h
  refine ⟨by omega, others.flatMap Line.chars,
    line.terminator.elim [] Terminator.chars ++ rest.flatMap Line.chars, ?_, by omega⟩
  rw [← flatMap_chars_lines text, hlines, List.flatMap_append, List.flatMap_cons, htext, Line.chars,
    List.append_assoc]

theorem Row.liesIn_of_mem {text : List Char} {row : Row} (h : row ∈ rows text) : row.LiesIn text := by
  obtain ⟨before, after, hrows⟩ := List.append_of_mem h
  exact (Row.liesIn_of_rows hrows).2

/-- A span in a row names the characters between its two places. -/
theorem Row.LiesIn.bytes_span {text : String} {row : Row} {lead marked rest : List Char}
    (h : row.LiesIn text.toList) (hline : row.text = lead ++ (marked ++ rest)) :
    (row.span (byteLength lead) (byteLength (lead ++ marked))).bytes text =
      (String.ofList marked).toByteArray := by
  obtain ⟨front, back, htext, hoffset⟩ := h
  have hwhole : text.toList = front ++ lead ++ (marked ++ (rest ++ back)) := by
    rw [htext, hline]
    simp
  rw [← String.ofList_toList (s := text), hwhole]
  simp only [Span.bytes, span, hoffset, byteLength_append, ← Nat.add_assoc]
  rw [← byteLength_append]
  exact extract_toByteArray (front ++ lead) marked (rest ++ back)

/-- The span of a row names its characters. -/
theorem Row.LiesIn.bytes_wholeSpan {text : String} {row : Row} (h : row.LiesIn text.toList) :
    row.wholeSpan.start ≤ row.wholeSpan.stop ∧ row.wholeSpan.stop ≤ text.utf8ByteSize ∧
      row.wholeSpan.bytes text = (String.ofList row.text).toByteArray := by
  refine ⟨?_, ?_, @Row.LiesIn.bytes_span text row [] row.text [] h (List.append_nil _).symm⟩
  · simp [wholeSpan, span]
  · obtain ⟨front, back, htext, hoffset⟩ := h
    have hsize := byteLength_toList text
    rw [htext, byteLength_append, byteLength_append] at hsize
    simp only [wholeSpan, span]
    omega

/-! ## Spans in a row -/

/-- The span marks a stretch of a row: it has its line, lies between its first and its last byte, does
not split characters, and its column counts the characters of the text from the start of the row. -/
structure Span.PointsInto (span : Span) (text : String) (row : Row) : Prop where
  line : span.line = row.number
  offset_le : row.offset ≤ span.start
  start_le : span.start ≤ span.stop
  stop_le : span.stop ≤ row.offset + byteLength row.text
  start_isValid : (String.Pos.Raw.mk span.start).IsValid text
  stop_isValid : (String.Pos.Raw.mk span.stop).IsValid text
  column : ∃ front between rest : String, text = front ++ between ++ rest ∧
    front.utf8ByteSize = row.offset ∧ (front ++ between).utf8ByteSize = span.start ∧
    span.column = 1 + between.length

/-- Behind a leading part of a text there is a position. -/
theorem isValid_byteLength {text : String} (lead rest : List Char) (h : text.toList = lead ++ rest) :
    (String.Pos.Raw.mk (byteLength lead)).IsValid text := by
  rw [String.Pos.Raw.isValid_iff_exists_append]
  refine ⟨String.ofList lead, String.ofList rest, ?_, ?_⟩
  · rw [← String.ofList_append, ← h, String.ofList_toList]
  · rw [String.Pos.Raw.ext_iff, String.byteIdx_rawEndPos, ← byteLength_toList, String.toList_ofList]

theorem Row.pointsInto_span {text : String} {row : Row} {start stop : Nat}
    (hrow : row.LiesIn text.toList) (hmarks : Marks row.text start stop) :
    (row.span start stop).PointsInto text row := by
  obtain ⟨front, back, htext, hoffset⟩ := hrow
  obtain ⟨lead, marked, rest, hline, rfl, rfl⟩ := hmarks
  have hwhole : text.toList = front ++ (lead ++ (marked ++ (rest ++ back))) := by
    rw [htext, hline]
    simp
  have hsize : byteLength row.text = byteLength lead + (byteLength marked + byteLength rest) := by
    rw [hline, byteLength_append, byteLength_append]
  refine ⟨rfl, Nat.le_add_right _ _, ?_, ?_, ?_, ?_, ?_⟩
  · simp [span]
  · simp only [span, byteLength_append]
    omega
  · have hvalid := isValid_byteLength (front ++ lead) _ (hwhole.trans (List.append_assoc ..).symm)
    rwa [byteLength_append, ← hoffset] at hvalid
  · have hvalid := @isValid_byteLength text (front ++ (lead ++ marked)) (rest ++ back)
      (by rw [hwhole]; simp)
    rwa [byteLength_append, ← hoffset] at hvalid
  · refine ⟨String.ofList front, String.ofList lead, String.ofList (marked ++ (rest ++ back)),
      ?_, ?_, ?_, ?_⟩
    · rw [← String.ofList_append, ← String.ofList_append, List.append_assoc, ← hwhole,
        String.ofList_toList]
    · rw [← byteLength_toList, String.toList_ofList, hoffset]
    · rw [← String.ofList_append, ← byteLength_toList, String.toList_ofList, byteLength_append,
        ← hoffset]
      rfl
    · simp only [span, hline, charsBefore_byteLength, String.length_ofList]
      omega

/-! ## Loading -/

namespace Source

variable {source : Source} {limits : Limits} {row : Row} {d : Diagnosis}

/-- What fails at a place of a row is the reading of its text. -/
theorem clause_eq_error_iff_located :
    (source.clause limits row).outcome.1 = .error (.located d) ↔
      ∃ cause start stop after, Reader.clause limits.depth { ahead := row.text } =
          .error (.located cause start stop) after ∧
        d = ⟨cause, row.span start stop, source⟩ := by
  rw [outcome_clause]
  simp only [OpenLine.clause, OpenLine.read, OpenLine.ofRow]
  cases Reader.clause limits.depth { ahead := row.text } with
  | ok f after => simp [Except.map]
  | error failure after =>
    cases failure <;> simp [Except.map, OpenLine.errorOf, eq_comm]

theorem clause_eq_error_located (h : (source.clause limits row).outcome.1 = .error (.located d)) :
    ∃ cause start stop, Marks row.text start stop ∧ d = ⟨cause, row.span start stop, source⟩ := by
  obtain ⟨cause, start, stop, after, hread, rfl⟩ := clause_eq_error_iff_located.1 h
  have hkept := Reader.kept_clause limits.depth { ahead := row.text }
  rw [hread] at hkept
  exact ⟨cause, start, stop, hkept.2, rfl⟩

/-- **Errors point into the first row that cannot be read**: where loading a source fails at a place,
all rows before that row are skipped or can be read, the error is that of the row alone, its line is
the number of the row, its span marks a stretch of the row, and it carries the source. -/
theorem diagnosis_of_clauses (h : (source.clauses limits).outcome.1 = .error (.located d)) :
    ∃ before row after, rows source.text.toList = before ++ row :: after ∧ row.isIdle = false ∧
      (∀ r ∈ before, r.isIdle = false → ∃ c, (source.clause limits r).outcome.1 = .ok c) ∧
      (source.clause limits row).outcome.1 = .error (.located d) ∧
      d.span.line = before.length + 1 ∧ d.span.PointsInto source.text row ∧ d.source = source := by
  rcases clauses_eq_error_iff.1 h with ⟨-, hsize⟩ | ⟨-, earlier, row, later, hrows, hread, hfails⟩
  · cases hsize
  obtain ⟨front, back, hwhole, hfront, hback⟩ := List.filter_eq_append_iff.1 hrows
  obtain ⟨skipped, after, rfl, hskipped, hbusy, -⟩ := List.filter_eq_cons_iff.1 hback
  have hplace : rows source.text.toList = (front ++ skipped) ++ row :: after := by
    rw [hwhole, List.append_assoc]
  obtain ⟨hnumber, hrow⟩ := Row.liesIn_of_rows hplace
  obtain ⟨cause, start, stop, hmarks, rfl⟩ := clause_eq_error_located hfails
  refine ⟨front ++ skipped, row, after, hplace, by simpa using hbusy, fun r hr hidle => ?_, hfails,
    hnumber, Row.pointsInto_span hrow hmarks, rfl⟩
  rcases List.mem_append.1 hr with hr | hr
  · -- the rows before this one that are not skipped are those that were read
    refine hread r ?_
    rw [← hfront]
    exact List.mem_filter.2 ⟨hr, by simp [hidle]⟩
  · exact absurd (by simp [hidle]) (hskipped r hr)

/-- A character of one byte behind one of two bytes, in the third of three lines that end in three
ways. -/
theorem diagnosis_of_clauses_mixed :
    (Source.clauses ⟨"kb", "# é\r\np q\r(or é$\n)"⟩ {}).outcome.1 =
        .error (.located ⟨.unexpectedChar '$', ⟨16, 17, 3, 6⟩, ⟨"kb", "# é\r\np q\r(or é$\n)"⟩⟩) ∧
      ∃ before row after, rows "# é\r\np q\r(or é$\n)".toList = before ++ row :: after ∧
        before.length = 2 ∧
        (⟨16, 17, 3, 6⟩ : Span).PointsInto "# é\r\np q\r(or é$\n)" row := by
  have hload : (Source.clauses ⟨"kb", "# é\r\np q\r(or é$\n)"⟩ {}).outcome.1 =
      .error (.located ⟨.unexpectedChar '$', ⟨16, 17, 3, 6⟩, ⟨"kb", "# é\r\np q\r(or é$\n)"⟩⟩) := by
    cbv
  obtain ⟨before, row, after, hrows, -, -, -, hline, hspan, -⟩ := diagnosis_of_clauses hload
  exact ⟨hload, before, row, after, hrows, by simp only at hline; omega, hspan⟩

end Source

end Consequence
