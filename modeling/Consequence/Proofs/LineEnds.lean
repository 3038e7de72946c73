import Mathlib
import Consequence.Proofs.Concatenation
import Consequence.Proofs.Locations

/-!
# Line ends

A text is cut into rows at its line ends, and loading does not see which line ends they are.

* `Parted`: what it means for rows to be a text in order, apart from how a text is split.
* `first_line`: a text starts with a line and its terminator, or has no line break.
* `parted_iff`: the rows of a text are the only ones that it is parted into.
* `lines_withLineFeeds`: with line feeds for all terminators a text has the same lines.
* `rows_withLineFeeds`: so its rows are the same but for the bytes in front of them.
* `Source.outcome_withLineFeeds`: what is loaded is then the same but for places in bytes.
* `Source.clauses_any_line_ends`: both, for the rows of a source and for loading it.
-/

set_option autoImplicit false

namespace Consequence

/-! ## The rows of a text -/

/-- The rows are the text in order, from a byte and a line number on. A row is a line without line
breaks and has one terminator behind it; the last row may lack it and is then not empty. A CR with a LF
behind it is one terminator. -/
inductive Parted : (offset number : Nat) → List Char → List Row → Prop
  | done (offset number : Nat) : Parted offset number [] []
  | last (offset number : Nat) {text : List Char} :
      (∀ c ∈ text, isBreak c = false) → text ≠ [] →
      Parted offset number text [⟨offset, number, text⟩]
  | line {offset number : Nat} {text rest : List Char} {others : List Row} (terminator : Terminator) :
      (∀ c ∈ text, isBreak c = false) → (terminator = .cr → rest.head? ≠ some '\n') →
      Parted (offset + byteLength (text ++ terminator.chars)) (number + 1) rest others →
      Parted offset number (text ++ (terminator.chars ++ rest)) (⟨offset, number, text⟩ :: others)

theorem lines_unended {text : List Char} (htext : ∀ c ∈ text, isBreak c = false) (hne : text ≠ []) :
    lines text = [⟨text, none⟩] := by
  obtain ⟨start, c, rfl⟩ := (List.eq_nil_or_concat text).resolve_left hne
  have hlast : lines [c] = [⟨[c], none⟩] := by
    obtain ⟨hlf, hcr⟩ : c ≠ '\n' ∧ c ≠ '\r' := by simpa [isBreak] using htext c (by simp)
    simp [lines, Line.consChar, hlf, hcr]
  rw [List.concat_eq_append] at htext ⊢
  exact lines_append (fun d hd => htext d (List.mem_append_left _ hd)) hlast

theorem lines_ended {text rest : List Char} {terminator : Terminator}
    (htext : ∀ c ∈ text, isBreak c = false) (hcr : terminator = .cr → rest.head? ≠ some '\n') :
    lines (text ++ (terminator.chars ++ rest)) = ⟨text, some terminator⟩ :: lines rest := by
  have hbreak : lines (terminator.chars ++ rest) = ⟨[], some terminator⟩ :: lines rest := by
    cases terminator with
    | lf => exact lines_lf rest
    | crlf => exact lines_crlf rest
    | cr => exact lines_cr_alone (hcr rfl)
  rw [lines_append htext hbreak, List.append_nil]

theorem first_line (text : List Char) :
    (∀ c ∈ text, isBreak c = false) ∨
      ∃ (line : List Char) (terminator : Terminator) (rest : List Char),
        (∀ c ∈ line, isBreak c = false) ∧ (terminator = .cr → rest.head? ≠ some '\n') ∧
          text = line ++ (terminator.chars ++ rest) := by
  induction text with
  | nil => exact .inl (List.forall_mem_nil _)
  | cons c text ih =>
    cases hc : isBreak c with
    | false =>
      rcases ih with htext | ⟨line, terminator, rest, hline, hcr, rfl⟩
      · exact .inl (List.forall_mem_cons.2 ⟨hc, htext⟩)
      · exact .inr ⟨c :: line, terminator, rest, List.forall_mem_cons.2 ⟨hc, hline⟩, hcr, rfl⟩
    | true =>
      -- the line is empty, and a LF behind a CR belongs to its terminator
      right
      rcases isBreak_iff.1 hc with rfl | rfl
      · exact ⟨[], .lf, text, List.forall_mem_nil _, nofun, rfl⟩
      · by_cases hhead : text.head? = some '\n'
        · obtain ⟨rest, rfl⟩ := List.head?_eq_some_iff.1 hhead
          exact ⟨[], .crlf, rest, List.forall_mem_nil _, nofun, rfl⟩
        · exact ⟨[], .cr, text, List.forall_mem_nil _, fun _ => hhead, rfl⟩

theorem parted_numbered (offset number : Nat) (text : List Char) :
    Parted offset number text (numbered offset number (lines text)) := by
  induction hlength : text.length using Nat.strong_induction_on generalizing offset number text with
  | _ length ih =>
    rcases first_line text with htext | ⟨line, terminator, rest, hline, hcr, rfl⟩
    · rcases eq_or_ne text [] with rfl | hne
      · exact .done offset number
      · rw [lines_unended htext hne]
        exact .last offset number htext hne
    · have hshorter : rest.length < length := by
        cases terminator <;> simp [← hlength, Terminator.chars] <;> omega
      rw [lines_ended hline hcr]
      exact .line terminator hline hcr (ih _ hshorter _ _ rest rfl)

theorem parted_iff {offset number : Nat} {text : List Char} {rs : List Row} :
    Parted offset number text rs ↔ rs = numbered offset number (lines text) := by
  constructor
  · intro h
    induction h with
    | done => rfl
    | last offset number htext hne =>
      rw [lines_unended htext hne]
      rfl
    | line terminator hline hcr _ ih =>
      rw [lines_ended hline hcr, ih]
      rfl
  · rintro rfl
    exact parted_numbered offset number text

/-- A row is the text between two positions. -/
theorem Row.slice_of_mem {text : String} {row : Row} (h : row ∈ rows text.toList) :
    (String.Pos.Raw.mk row.offset).IsValid text ∧
      (String.Pos.Raw.mk (row.offset + byteLength row.text)).IsValid text ∧
      text.toByteArray.extract row.offset (row.offset + byteLength row.text) =
        (String.ofList row.text).toByteArray := by
  have hrow := Row.liesIn_of_mem h
  have hmarks : Marks row.text 0 (byteLength row.text) := ⟨[], row.text, [], by simp, rfl, rfl⟩
  have hspan := Row.pointsInto_span hrow hmarks
  exact ⟨hspan.start_isValid, hspan.stop_isValid, hrow.bytes_wholeSpan.2.2⟩

/-! ## Line feeds for all terminators -/

/-- The text with a line feed in place of every CR LF and of every other CR. -/
def withLineFeeds : List Char → List Char
  | [] => []
  | c :: text =>
    if c = '\r' then
      if text.head? = some '\n' then withLineFeeds text else '\n' :: withLineFeeds text
    else c :: withLineFeeds text

example : withLineFeeds ['a', '\r', '\r', '\n', '\n', 'b', '\r'] = ['a', '\n', '\n', '\n', 'b', '\n'] := by
  decide

/-- The line with a line feed for its terminator, if it has one. -/
def Line.withLineFeed (line : Line) : Line :=
  { line with terminator := line.terminator.map fun _ => .lf }

theorem cr_notMem_withLineFeeds (text : List Char) : '\r' ∉ withLineFeeds text := by
  induction text with
  | nil => exact List.not_mem_nil
  | cons c text ih =>
    rw [withLineFeeds]
    split
    · split
      · exact ih
      · simp [ih]
    · next hc => simp [ih, Ne.symm hc]

theorem byteLength_withLineFeeds_le (text : List Char) :
    byteLength (withLineFeeds text) ≤ byteLength text := by
  have hsize : '\n'.utf8Size = '\r'.utf8Size := rfl
  induction text with
  | nil => exact Nat.le_refl _
  | cons c text ih =>
    rw [withLineFeeds]
    split
    · next hc =>
      subst hc
      split <;> simp only [byteLength_cons] <;> omega
    · simp only [byteLength_cons]
      omega

theorem lines_withLineFeeds (text : List Char) :
    lines (withLineFeeds text) = (lines text).map Line.withLineFeed := by
  induction text with
  | nil => rfl
  | cons c text ih =>
    rw [withLineFeeds]
    split
    · next hc =>
      subst hc
      split
      · next hhead =>
        obtain ⟨rest, rfl⟩ := List.head?_eq_some_iff.1 hhead
        rw [ih, lines_crlf, lines_lf]
        rfl
      · next hhead =>
        rw [lines_lf, ih, lines_cr_alone hhead]
        rfl
    · next hcr =>
      by_cases hlf : c = '\n'
      · subst hlf
        rw [lines_lf, lines_lf, ih]
        rfl
      · have hc : isBreak c = false := by simp [isBreak, hlf, hcr]
        rcases eq_or_ne text [] with rfl | hne
        · rw [withLineFeeds, lines_unended (List.forall_mem_singleton.2 hc) (List.cons_ne_nil _ _)]
          rfl
        · obtain ⟨line, others, hlines⟩ := List.exists_cons_of_ne_nil (lines_ne_nil hne)
          rw [hlines] at ih
          rw [lines_cons hc ih, lines_cons hc hlines]
          rfl

/-- The row stands as many bytes behind the other one as terminators in front of it were cut. -/
def Row.Behind (row other : Row) : Prop :=
  ∃ bytes, row = other.shift ⟨bytes, 0⟩

theorem numbered_withLineFeed (offset bytes number : Nat) (ls : List Line) :
    List.Forall₂ Row.Behind (numbered (offset + bytes) number ls)
      (numbered offset number (ls.map Line.withLineFeed)) := by
  induction ls generalizing offset bytes number with
  | nil => exact .nil
  | cons line ls ih =>
    obtain ⟨more, hmore⟩ :
        ∃ more, byteLength line.chars = byteLength line.withLineFeed.chars + more := by
      rcases line with ⟨text, _ | _ | _ | _⟩
      case none => exact ⟨0, rfl⟩
      case some.lf => exact ⟨0, rfl⟩
      case some.crlf => exact ⟨1, by simp [Line.withLineFeed, Line.chars, Terminator.chars]; rfl⟩
      case some.cr => exact ⟨0, by simp [Line.withLineFeed, Line.chars, Terminator.chars]; rfl⟩
    have hrest := ih (offset + byteLength line.withLineFeed.chars) (bytes + more) (number + 1)
    rw [numbered, List.map_cons, numbered]
    refine .cons ⟨bytes, rfl⟩ ?_
    rwa [show offset + bytes + byteLength line.chars =
      offset + byteLength line.withLineFeed.chars + (bytes + more) by omega]

theorem rows_withLineFeeds (text : List Char) :
    List.Forall₂ Row.Behind (rows text) (rows (withLineFeeds text)) := by
  rw [rows_eq_numbered, rows_eq_numbered, lines_withLineFeeds]
  exact numbered_withLineFeed 0 0 1 (lines text)

/-! ## Loading without places in bytes -/

/-- The span without its place among the bytes of the text. It keeps its size, its line and its
column. -/
def Span.unplaced (span : Span) : Span :=
  { span with start := 0, stop := span.stop - span.start }

/-- The clause with its span unplaced. -/
def Clause.unplaced (clause : Clause) : Clause :=
  { clause with span := clause.span.unplaced }

/-- The error with its span unplaced and without the text of its source. -/
def Error.unplaced (e : Error) : Error :=
  match e with
  | located d => located { d with span := d.span.unplaced, source := { d.source with text := "" } }
  | excess found => excess found
  | clauseCount id found => clauseCount id found

/-- A message names the line and the column, and no byte. -/
theorem Error.message_unplaced (e : Error) : e.unplaced.message = e.message := by
  cases e <;> rfl

theorem Span.unplaced_shift (span : Span) (bytes : Nat) :
    (span.shift ⟨bytes, 0⟩).unplaced = span.unplaced := by
  simp [shift, unplaced, Nat.add_sub_add_right]

theorem Error.unplaced_shift (e : Error) (bytes : Nat) (other : String) :
    ((e.shift ⟨bytes, 0⟩).withText other).unplaced = e.unplaced := by
  cases e with
  | located d => simp [shift, withText, unplaced, Span.unplaced_shift]
  | excess found => rfl
  | clauseCount id found => rfl

/-- An outcome with its value and its error unplaced. -/
def Reporting.unplaced {α : Type} (forget : α → α) (outcome : Except Error α × Array Warning) :
    Except Error α × Array Warning :=
  ((outcome.1.map forget).mapError Error.unplaced, outcome.2)

namespace Source

variable {limits : Limits}

theorem outcome_clause_behind {row other : Row} (h : row.Behind other) (id text normal : String) :
    Reporting.unplaced Clause.unplaced (Source.clause ⟨id, text⟩ limits row).outcome =
      Reporting.unplaced Clause.unplaced (Source.clause ⟨id, normal⟩ limits other).outcome := by
  obtain ⟨bytes, rfl⟩ := h
  rw [outcome_clause_shift id normal text]
  rcases (Source.clause ⟨id, normal⟩ limits other).outcome with ⟨e | c, given⟩
  · simp [Reporting.unplaced, Reporting.outcomeAt, Except.map, Except.mapError, Error.unplaced_shift,
      Warning.shift]
  · simp [Reporting.unplaced, Reporting.outcomeAt, Except.map, Except.mapError, Clause.unplaced,
      Clause.shift, Span.unplaced_shift, Warning.shift]

theorem unplaced_chain_cons (first : Except Error Clause × Array Warning)
    (rest : Except Error (List Clause) × Array Warning) :
    Reporting.unplaced (·.map Clause.unplaced)
        (Reporting.chain first fun c => (rest.1.map (c :: ·), rest.2)) =
      Reporting.chain (Reporting.unplaced Clause.unplaced first) fun c =>
        ((Reporting.unplaced (·.map Clause.unplaced) rest).1.map (c :: ·), rest.2) := by
  rcases first with ⟨e | c, given⟩ <;> rcases rest with ⟨e | cs, others⟩ <;> rfl

theorem outcome_mapM_behind {rs others : List Row} (h : List.Forall₂ Row.Behind rs others)
    (id text normal : String) :
    Reporting.unplaced (·.map Clause.unplaced) (rs.mapM (Source.clause ⟨id, text⟩ limits)).outcome =
      Reporting.unplaced (·.map Clause.unplaced)
        (others.mapM (Source.clause ⟨id, normal⟩ limits)).outcome := by
  induction h with
  | nil => rfl
  | cons hfirst _ ih =>
    have hwarnings := congrArg Prod.snd ih
    simp only [Reporting.unplaced] at hwarnings
    rw [Reporting.outcome_mapM_cons (appends_clause _ _),
      Reporting.outcome_mapM_cons (appends_clause _ _), unplaced_chain_cons, unplaced_chain_cons,
      outcome_clause_behind hfirst id text normal, ih, hwarnings]

/-- The source with line feeds for all terminators. -/
def withLineFeeds (source : Source) : Source :=
  { source with text := String.ofList (Consequence.withLineFeeds source.text.toList) }

theorem outcome_withLineFeeds {source : Source}
    (hsize : source.text.utf8ByteSize ≤ limits.sourceBytes) :
    Reporting.unplaced (·.map Clause.unplaced) (source.withLineFeeds.clauses limits).outcome =
      Reporting.unplaced (·.map Clause.unplaced) (source.clauses limits).outcome := by
  have hnormal : source.withLineFeeds.text.utf8ByteSize ≤ limits.sourceBytes := by
    have hle := byteLength_withLineFeeds_le source.text.toList
    rw [byteLength_toList] at hle
    rw [← byteLength_toList, withLineFeeds, String.toList_ofList]
    omega
  have hidle : (Relator.LiftFun Row.Behind (· ↔ ·)) (fun row => (!row.isIdle) = true)
      (fun row => (!row.isIdle) = true) := by
    rintro _ other ⟨bytes, rfl⟩
    rfl
  rw [outcome_clauses hsize, outcome_clauses hnormal, withLineFeeds, String.toList_ofList]
  exact (outcome_mapM_behind (List.rel_filter hidle (rows_withLineFeeds _)) _ _ _).symm

/-- **A text is cut exactly at its line ends, and which ones they are changes nothing**: a text is
parted into its rows and into no others, and each row is the text between two positions. With a line
feed for every CR LF and every other CR, no CR is left and the rows have the same numbers and texts.
Loading that text gives the same warnings, and the same clauses or the same error with the same
message, in the same lines and columns. -/
theorem clauses_any_line_ends (source : Source) (limits : Limits) :
    (∀ rs, Parted 0 1 source.text.toList rs ↔ rs = rows source.text.toList) ∧
      (∀ row ∈ rows source.text.toList,
        (String.Pos.Raw.mk row.offset).IsValid source.text ∧
          (String.Pos.Raw.mk (row.offset + byteLength row.text)).IsValid source.text ∧
          source.text.toByteArray.extract row.offset (row.offset + byteLength row.text) =
            (String.ofList row.text).toByteArray) ∧
      '\r' ∉ source.withLineFeeds.text.toList ∧
      (rows source.withLineFeeds.text.toList).map (fun row => (row.number, row.text)) =
        (rows source.text.toList).map (fun row => (row.number, row.text)) ∧
      (source.text.utf8ByteSize ≤ limits.sourceBytes →
        (source.withLineFeeds.clauses limits).outcome.2 = (source.clauses limits).outcome.2 ∧
          (∀ cs, (source.clauses limits).outcome.1 = .ok cs →
            ∃ others, (source.withLineFeeds.clauses limits).outcome.1 = .ok others ∧
              others.map Clause.unplaced = cs.map Clause.unplaced) ∧
          ∀ e, (source.clauses limits).outcome.1 = .error e →
            ∃ other, (source.withLineFeeds.clauses limits).outcome.1 = .error other ∧
              other.unplaced = e.unplaced ∧ other.message = e.message) := by
  have htext : source.withLineFeeds.text.toList = Consequence.withLineFeeds source.text.toList :=
    String.toList_ofList
  refine ⟨fun rs => ?_, fun row hrow => Row.slice_of_mem hrow, ?_, ?_, fun hsize => ?_⟩
  · rw [rows_eq_numbered]
    exact parted_iff
  · rw [htext]
    exact cr_notMem_withLineFeeds _
  · have hsame := (rows_withLineFeeds source.text.toList).imp
      (S := fun row other => (other.number, other.text) = (row.number, row.text))
      (by rintro _ other ⟨bytes, rfl⟩; rfl)
    rw [htext, ← List.forall₂_eq_eq_eq, List.forall₂_map_left_iff, List.forall₂_map_right_iff]
    exact hsame.flip
  · have houtcome := outcome_withLineFeeds hsize
    have hvalue := congrArg Prod.fst houtcome
    have hwarnings := congrArg Prod.snd houtcome
    simp only [Reporting.unplaced] at hwarnings
    refine ⟨hwarnings, fun cs hcs => ?_, fun e he => ?_⟩
    · cases hothers : (source.withLineFeeds.clauses limits).outcome.1 with
      | ok others =>
        simp only [Reporting.unplaced, hothers, hcs, Except.map, Except.mapError] at hvalue
        exact ⟨others, rfl, Except.ok.inj hvalue⟩
      | error other => simp [Reporting.unplaced, hothers, hcs, Except.map, Except.mapError] at hvalue
    · cases hother : (source.withLineFeeds.clauses limits).outcome.1 with
      | ok others => simp [Reporting.unplaced, hother, he, Except.map, Except.mapError] at hvalue
      | error other =>
        simp only [Reporting.unplaced, hother, he, Except.map, Except.mapError] at hvalue
        have hsame := Except.error.inj hvalue
        exact ⟨other, rfl, hsame, by rw [← other.message_unplaced, hsame, e.message_unplaced]⟩

/-- A lone CR, a CR LF, a LF and a lone CR again, behind a character of two bytes. -/
def mixedLineEnds : Source :=
  ⟨"kb", "é\r\r\n\np q\r(or é$"⟩

set_option maxRecDepth 3000 in
/-- With line feeds the error stands one byte nearer to the start, and its message stays. -/
theorem clauses_any_line_ends_mixed :
    mixedLineEnds.text.utf8ByteSize ≤ ({} : Limits).sourceBytes ∧
      Parted 0 1 mixedLineEnds.text.toList
        [⟨0, 1, ['é']⟩, ⟨3, 2, []⟩, ⟨5, 3, []⟩, ⟨6, 4, ['p', ' ', 'q']⟩,
          ⟨10, 5, ['(', 'o', 'r', ' ', 'é', '$']⟩] ∧
      (mixedLineEnds.clauses {}).outcome.1 =
        .error (.located ⟨.unexpectedChar '$', ⟨16, 17, 5, 6⟩, mixedLineEnds⟩) ∧
      ∃ other, (Source.clauses ⟨"kb", "é\n\n\np q\n(or é$"⟩ {}).outcome.1 = .error other ∧
        other.message = Error.message
          (.located ⟨.unexpectedChar '$', ⟨16, 17, 5, 6⟩, mixedLineEnds⟩) := by
  have hsize : mixedLineEnds.text.utf8ByteSize ≤ ({} : Limits).sourceBytes := by decide
  have hload : (mixedLineEnds.clauses {}).outcome.1 =
      .error (.located ⟨.unexpectedChar '$', ⟨16, 17, 5, 6⟩, mixedLineEnds⟩) := by
    cbv
  have hnormal : mixedLineEnds.withLineFeeds = ⟨"kb", "é\n\n\np q\n(or é$"⟩ := by cbv
  obtain ⟨hrows, -, -, -, hloads⟩ := clauses_any_line_ends mixedLineEnds {}
  obtain ⟨other, hother, -, hmessage⟩ := (hloads hsize).2.2 _ hload
  rw [hnormal] at hother
  exact ⟨hsize, (hrows _).2 (by cbv), hload, other, hother, hmessage⟩

end Source

end Consequence
