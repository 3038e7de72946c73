import Mathlib
import Consequence.Proofs.CommandLine
import Consequence.Proofs.Defects
import Consequence.Proofs.Locations
import Consequence.Proofs.Runs

/-!
# What the report of an error labels

The span of an error counts bytes. Its report labels the stretch between the same two numbers, and labels
count characters. So the label is on the text at fault as long as no character in front of its end takes
more than one byte.

* `Span.Holds`: the characters that a span names.
* `Diagnosis.covers_iff_holds`: when the label of a report covers the characters that the span names.
* `Diagnosis.MarksRow`: an error names at least one character of a row with a clause.
* `Options.marksRow_of_failsWith`: so do all errors of the program, in the file that they name.
* `Options.report_labels`: what the program labels for them.
* `Options.not_forall_report_labels`: a character of two bytes in front of the text at fault.
-/

set_option autoImplicit false

namespace Consequence

/-! ## Bytes and characters -/

theorem length_le_byteLength (text : List Char) : text.length ≤ byteLength text := by
  induction text with
  | nil => exact Nat.le_refl 0
  | cons c text ih =>
    have hpos := c.utf8Size_pos
    rw [List.length_cons, byteLength_cons]
    omega

theorem byteLength_eq_length_iff {text : List Char} :
    byteLength text = text.length ↔ ∀ c ∈ text, c.utf8Size = 1 := by
  induction text with
  | nil => simp
  | cons c text ih =>
    have hpos := c.utf8Size_pos
    have hle := length_le_byteLength text
    rw [List.forall_mem_cons, ← ih, List.length_cons, byteLength_cons]
    omega

/-- A longer leading part takes more bytes. -/
theorem byteLength_take_le_iff {text : List Char} {m n : Nat} (hm : m ≤ text.length) :
    byteLength (text.take m) ≤ byteLength (text.take n) ↔ m ≤ n := by
  rcases Nat.le_total m n with hle | hle
  · obtain ⟨k, rfl⟩ := Nat.exists_eq_add_of_le hle
    rw [List.take_add, byteLength_append]
    omega
  · obtain ⟨k, rfl⟩ := Nat.exists_eq_add_of_le hle
    rcases Nat.eq_zero_or_pos k with rfl | hk
    · simp
    have hmore := length_le_byteLength ((text.drop n).take k)
    rw [List.length_take, List.length_drop] at hmore
    rw [List.take_add, byteLength_append]
    omega

namespace Span

variable {span : Span} {text front marked rest : List Char}

/-- The bytes of the character in the place are among those of the span. -/
def Holds (span : Span) (text : List Char) (place : Nat) : Prop :=
  span.start ≤ byteLength (text.take place) ∧ byteLength (text.take (place + 1)) ≤ span.stop

theorem holds_iff (htext : text = front ++ (marked ++ rest)) (hstart : span.start = byteLength front)
    (hstop : span.stop = byteLength (front ++ marked)) {place : Nat} (hplace : place < text.length) :
    span.Holds text place ↔ front.length ≤ place ∧ place < front.length + marked.length := by
  have hfront : byteLength front = byteLength (text.take front.length) := by simp [htext]
  have hwhole : byteLength (front ++ marked) =
      byteLength (text.take (front.length + marked.length)) := by
    rw [htext, ← List.append_assoc, List.take_left' (List.length_append)]
  have hlength : front.length ≤ text.length := by simp [htext]
  unfold Holds
  rw [hstart, hstop, hfront, hwhole, byteLength_take_le_iff hlength,
    byteLength_take_le_iff (Nat.succ_le_of_lt hplace), Nat.succ_le_iff]

end Span

/-- The label of a report is right just if all characters in front of the stretch take one byte and so do
those in it, where the text goes on behind it. -/
theorem Diagnosis.covers_iff_holds {d : Diagnosis} {text front marked rest : List Char}
    (htext : text = front ++ (marked ++ rest)) (hne : marked ≠ [])
    (hstart : d.span.start = byteLength front) (hstop : d.span.stop = byteLength (front ++ marked)) :
    (∀ place < text.length, (d.report.label.Covers place ↔ d.span.Holds text place)) ↔
      (∀ c ∈ front, c.utf8Size = 1) ∧ (rest = [] ∨ ∀ c ∈ marked, c.utf8Size = 1) := by
  have hlength : text.length = front.length + marked.length + rest.length := by
    simp [htext, Nat.add_assoc]
  have hmarked := List.length_pos_iff.2 hne
  have hfront_le := length_le_byteLength front
  have hmarked_le := length_le_byteLength marked
  have hcovers (place : Nat) : d.report.label.Covers place ↔
      byteLength front ≤ place ∧ place < byteLength front + byteLength marked := by
    rw [Label.Covers, start_label_report, stop_label_report, hstart, hstop, byteLength_append]
  rw [← byteLength_eq_length_iff, ← byteLength_eq_length_iff, ← List.length_eq_zero_iff]
  constructor
  · intro h
    -- the first character of the stretch is labelled, and what is behind the last one is not
    have hfirst := h front.length (by omega)
    rw [hcovers, Span.holds_iff htext hstart hstop (by omega)] at hfirst
    refine ⟨by omega, or_iff_not_imp_left.2 fun hrest => ?_⟩
    have hbehind := h (front.length + marked.length) (by omega)
    rw [hcovers, Span.holds_iff htext hstart hstop (by omega)] at hbehind
    omega
  · rintro ⟨hfront, hends⟩ place hplace
    rw [hcovers, Span.holds_iff htext hstart hstop hplace]
    omega

/-! ## Where errors are -/

/-- The row is not empty, since it has a clause. -/
theorem Row.text_ne_nil {row : Row} (h : row.isIdle = false) : row.text ≠ [] := by
  intro hnil
  simp [isIdle, hnil] at h

/-- Behind the blanks of the row there is more. -/
theorem Row.exists_head_skip {row : Row} (h : row.isIdle = false) :
    ∃ c, (Caret.skip isBlank { ahead := row.text }).ahead.head? = some c := by
  rw [← Option.isSome_iff_exists, List.isSome_head?]
  intro hblank
  have hall : ∀ c ∈ row.text, isBlank c = true := List.dropWhile_eq_nil_iff.1 hblank
  simp [isIdle, List.all_eq_true.2 hall] at h

/-- The error names at least one character of a row with a clause. -/
def Diagnosis.MarksRow (d : Diagnosis) : Prop :=
  ∃ row ∈ d.source.clauseRows, ∃ start stop, Marks row.text start stop ∧ start < stop ∧
    d.span = row.span start stop

/-- What the error names is a stretch of its text. -/
theorem Diagnosis.MarksRow.stretch {d : Diagnosis} (h : d.MarksRow) :
    ∃ front marked rest : List Char, d.source.text.toList = front ++ (marked ++ rest) ∧ marked ≠ [] ∧
      d.span.start = byteLength front ∧ d.span.stop = byteLength (front ++ marked) := by
  obtain ⟨row, hrow, _, _, ⟨lead, marked, rest, hline, rfl, rfl⟩, hlt, hspan⟩ := h
  obtain ⟨front, back, htext, hoffset⟩ := Row.liesIn_of_mem (Source.mem_clauseRows.1 hrow).1
  refine ⟨front ++ lead, marked, rest ++ back, ?_, ?_, ?_, ?_⟩
  · rw [htext, hline]
    simp
  · rintro rfl
    simp at hlt
  · rw [hspan, byteLength_append front, ← hoffset]
    rfl
  · rw [hspan, List.append_assoc, byteLength_append front, ← hoffset]
    rfl

/-- The clause has the span of a row of the text. -/
def Clause.StandsIn (c : Clause) (text : String) : Prop :=
  ∃ row ∈ (Source.mk c.sourceId text).clauseRows, c.span = row.wholeSpan

/-- A rejected clause is named by its row. -/
theorem Clause.marksRow_of_rejection {c : Clause} {text : String} {d : Diagnosis} (hc : c.StandsIn text)
    (h : c.rejection? text = some (.located d)) :
    d.source = ⟨c.sourceId, text⟩ ∧ d.MarksRow := by
  obtain ⟨row, hrow, hspan⟩ := hc
  obtain ⟨violation, -, hd⟩ := Option.map_eq_some_iff.1 h
  obtain rfl := Error.located.inj hd
  have hpos := List.length_pos_iff.2 (Row.text_ne_nil (Source.mem_clauseRows.1 hrow).2)
  refine ⟨rfl, row, hrow, 0, byteLength row.text, ⟨[], row.text, [], by simp, rfl, rfl⟩, ?_, hspan⟩
  exact Nat.lt_of_lt_of_le hpos (length_le_byteLength _)

namespace Source

variable {source : Source} {limits : Limits} {row : Row} {d : Diagnosis}

theorem marksRow_of_clause (hrow : row ∈ source.clauseRows)
    (h : (source.clause limits row).outcome.1 = .error (.located d)) :
    d.source = source ∧ d.MarksRow := by
  obtain ⟨c, hc⟩ := Row.exists_head_skip (mem_clauseRows.1 hrow).2
  obtain ⟨cause, start, stop, after, hread, rfl⟩ := clause_eq_error_iff_located.1 h
  have hkept := Reader.kept_clause limits.depth { ahead := row.text }
  have hwide := Reader.wide_clause limits.depth hc
  rw [hread] at hkept hwide
  exact ⟨rfl, row, hrow, start, stop, hkept.2, hwide, rfl⟩

theorem marksRow_of_clauses (h : (source.clauses limits).outcome.1 = .error (.located d)) :
    d.source = source ∧ d.MarksRow := by
  rcases clauses_eq_error_iff.1 h with ⟨-, hsize⟩ | ⟨-, before, row, after, hrows, -, hfails⟩
  · cases hsize
  · exact marksRow_of_clause (by simp [hrows]) hfails

theorem standsIn_of_clauses {cs : List Clause} (h : (source.clauses limits).outcome.1 = .ok cs) :
    ∀ c ∈ cs, c.sourceId = source.id ∧ c.StandsIn source.text := by
  intro c hc
  rw [← rowClauses_eq h] at hc
  obtain ⟨row, hrow, hread⟩ := mem_rowClauses.1 hc
  obtain ⟨-, hid, hspan⟩ := clause_eq_ok_iff.1 hread
  exact ⟨hid, row, by rwa [hid], hspan⟩

end Source

theorem Statement.marksRow_of_ofSource {source : Source} {limits : Limits} {d : Diagnosis}
    (h : (ofSource source limits).outcome.1 = .error (.located d)) :
    d.source = source ∧ d.MarksRow := by
  rcases ofSource_eq_error_iff.1 h with hfails | ⟨c, hread, hrejected⟩ | ⟨read, -, -, hcount⟩
  · exact Source.marksRow_of_clauses hfails
  · obtain ⟨hid, hstands⟩ := Source.standsIn_of_clauses hread c (List.mem_singleton_self c)
    obtain ⟨hsource, hmarks⟩ := Clause.marksRow_of_rejection hstands hrejected
    exact ⟨by rw [hsource, hid], hmarks⟩
  · cases hcount

/-! ## Errors of the program -/

/-- The clauses of the base stand in files, with the texts that are stored for them. -/
def KnowledgeBase.ReadFrom (kb : KnowledgeBase) (directory : Directory) : Prop :=
  ∀ c ∈ kb.clauses, directory.read c.sourceId = .ok (kb.sourceText c.sourceId) ∧
    c.StandsIn (kb.sourceText c.sourceId)

namespace Options

variable {options : Options} {directory : Directory} {kb larger : KnowledgeBase} {path : String}
  {d : Diagnosis}

/-- A path leads to one text, so the texts of other clauses stay when one more file is loaded. -/
theorem readFrom_of_loads (hkb : kb.ReadFrom directory) (h : Loads directory kb path larger) :
    larger.ReadFrom directory := by
  obtain ⟨text, count, hread, hadd⟩ := h
  obtain ⟨cs, hload, -, rfl⟩ := KnowledgeBase.add_eq_ok_iff.1 hadd
  intro c hc
  simp only [KnowledgeBase.sourceText, KnowledgeBase.extend]
  rw [KnowledgeBase.sourceText_insert kb.texts ⟨path, text⟩]
  rcases List.mem_append.1 hc with hold | hnew
  · obtain ⟨hfile, hstands⟩ := hkb c hold
    by_cases hid : path = c.sourceId
    · subst hid
      rw [hread, Except.ok.injEq] at hfile
      rw [if_pos rfl, hfile]
      exact ⟨hfile ▸ hread, hstands⟩
    · rw [if_neg hid]
      exact ⟨hfile, hstands⟩
  · obtain ⟨hid, hstands⟩ := Source.standsIn_of_clauses hload c hnew
    rw [hid, if_pos rfl]
    exact ⟨hread, hstands⟩

theorem marksRow_of_validate (hkb : kb.ReadFrom directory) (h : kb.validate = .error (.located d)) :
    directory.read d.source.id = .ok d.source.text ∧ d.MarksRow := by
  rw [KnowledgeBase.validate_eq_error_iff_rejection?] at h
  obtain ⟨c, hc, hrejected⟩ := List.exists_of_findSome?_eq_some h
  obtain ⟨hfile, hstands⟩ := hkb c hc
  obtain ⟨hsource, hmarks⟩ := Clause.marksRow_of_rejection hstands hrejected
  rw [hsource]
  exact ⟨hfile, hmarks⟩

theorem marksRow_of_loadFails (h : LoadFails directory kb path (.rejected (.located d))) :
    directory.read d.source.id = .ok d.source.text ∧ d.MarksRow := by
  cases h with
  | rejected hread hadd =>
    obtain ⟨hsource, hmarks⟩ := Source.marksRow_of_clauses (KnowledgeBase.add_eq_error_iff.1 hadd)
    rw [hsource]
    exact ⟨hread, hmarks⟩

theorem marksRow_of_failsWith (h : options.FailsWith directory (.rejected (.located d))) :
    directory.read d.source.id = .ok d.source.text ∧ d.MarksRow := by
  have hnew : ({ limits := options.limits } : KnowledgeBase).ReadFrom directory := nofun
  cases h with
  | rules h => exact marksRow_of_loadFails h
  | knowledge _ h => exact marksRow_of_loadFails h
  | base hfirst hsecond h =>
    exact marksRow_of_validate (readFrom_of_loads (readFrom_of_loads hnew hfirst) hsecond) h
  | statement _ hread h =>
    obtain ⟨hsource, hmarks⟩ := Statement.marksRow_of_ofSource h
    rw [hsource]
    exact ⟨hread, hmarks⟩
  | freeSymbols _ _ h =>
    obtain ⟨limit, -, -, hexcess⟩ := ValidBase.judge_eq_error_iff.1 h
    cases hexcess

/-- **The report labels the text at fault where it is ASCII.** An error at a place that ends the check of
the program is written to standard error as its report, however reports are drawn. The file that it names
holds its text, and its span names a stretch of this text that is not empty. The label of the report
covers the characters of the stretch just if all characters in front of it take one byte, and those in it
too, unless the stretch ends the text. -/
theorem report_labels (libraries : Libraries)
    (h : Gives (options.check Directory.access) directory (.error (.rejected (.located d)))) :
    (options.exit libraries directory).stderr =
        (libraries.report d.report d.source).getD (Error.located d).message ++ "\n" ∧
      directory.read d.source.id = .ok d.source.text ∧
      ∃ front marked rest : List Char, d.source.text.toList = front ++ (marked ++ rest) ∧ marked ≠ [] ∧
        d.span.start = byteLength front ∧ d.span.stop = byteLength (front ++ marked) ∧
        ((∀ place < d.source.text.toList.length,
            (d.report.label.Covers place ↔ d.span.Holds d.source.text.toList place)) ↔
          (∀ c ∈ front, c.utf8Size = 1) ∧ (rest = [] ∨ ∀ c ∈ marked, c.utf8Size = 1)) := by
  have hfails := gives_check_error_iff.1 h
  obtain ⟨hfile, hmarks⟩ := marksRow_of_failsWith hfails
  obtain ⟨front, marked, rest, htext, hne, hstart, hstop⟩ := hmarks.stretch
  refine ⟨?_, hfile, front, marked, rest, htext, hne, hstart, hstop,
    Diagnosis.covers_iff_holds htext hne hstart hstop⟩
  rw [exit, run_of_failsWith hfails]
  rfl

/-- Rules in which a character that no word may hold stands behind one of two bytes. -/
def accented : Directory :=
  ⟨[(["r"], "(and é$ c)".toUTF8), (["k"], "".toUTF8), (["s"], "a".toUTF8)]⟩

/-- The options that name these files. -/
def accentedOptions : Options where
  rules := "r"
  knowledge := "k"
  statement := "s"

/-- The error about the character `$`, in the seventh column and at the byte 7. -/
def accentedError : Diagnosis :=
  ⟨.unexpectedChar '$', ⟨7, 8, 1, 7⟩, ⟨"r", "(and é$ c)"⟩⟩

theorem gives_accented : Gives (accentedOptions.check Directory.access) accented
    (.error (.rejected (.located accentedError))) := by
  have hresolve : accented.resolve "r" = .ok ["r"] := by cbv
  have hplace : accented.isDirectory ["r"] = false := by cbv
  have hfind : accented.find? ["r"] = some "(and é$ c)".toUTF8 := by cbv
  have hslash : "r".endsWith "/" = false := by cbv
  have hread : accented.read "r" = .ok "(and é$ c)" :=
    Directory.read_eq_ok_iff.2 ⟨_, _, hresolve, hplace, hfind, hslash, fromUTF8?_toUTF8 _⟩
  have hload : (Source.clauses ⟨"r", "(and é$ c)"⟩ accentedOptions.limits).outcome.1 =
      .error (.located accentedError) := by
    cbv
  exact gives_check_error (.rules (.rejected hread (KnowledgeBase.add_eq_error_iff.2 hload)))

/-- The character takes the byte behind the first seven. -/
theorem report_labels_accented :
    (accentedOptions.exit .standard accented).stderr =
        (Libraries.standard.report accentedError.report accentedError.source).getD
          (Error.located accentedError).message ++ "\n" ∧
      ∃ front marked rest : List Char,
        accentedError.source.text.toList = front ++ (marked ++ rest) ∧
          byteLength front = 7 ∧ byteLength (front ++ marked) = 8 := by
  obtain ⟨hshown, -, front, marked, rest, htext, -, hstart, hstop, -⟩ :=
    report_labels .standard gives_accented
  exact ⟨hshown, front, marked, rest, htext, hstart.symm, hstop.symm⟩

/-- The label is on the blank behind the character at fault. -/
theorem not_forall_report_labels :
    ¬ ∀ (options : Options) (directory : Directory) (d : Diagnosis),
      Gives (options.check Directory.access) directory (.error (.rejected (.located d))) →
      ∀ place < d.source.text.toList.length,
        (d.report.label.Covers place ↔ d.span.Holds d.source.text.toList place) := by
  intro h
  have hplace := h accentedOptions accented accentedError gives_accented 7 (by decide)
  exact absurd (hplace.1 (by decide)).2 (by decide)

end Options

end Consequence
