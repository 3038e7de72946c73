import Mathlib
import Consequence.Proofs.Listing
import Consequence.Proofs.Loading

/-!
# Unread input

What stands behind the first formula of a line is not read, and a warning says where it starts. Without it
the line is read as the same formula, so a source whose lines are cut where its warnings point gives the
same formulas and no warning.

* `Reports`: what the rows of a source start with, and the warnings about what is behind.
* `Source.reports_of_clauses`: the warnings of a source.
* `Source.cut`: a source without what its warnings are about.
* `Reports.busy_cutLines`: the rows of this text that are not skipped, by induction on the lines.
* `Source.unread_reported`: both parts for any source.
-/

set_option autoImplicit false

namespace Consequence

variable {f : Formula} {fs : List Formula} {line kept unread : List Char} {row : Row} {rows : List Row}
  {warnings : List Warning} {ls : List Line}

/-! ## Lines -/

/-- What is behind the formula can be left out. -/
theorem FirstFormula.whole (h : FirstFormula f line kept unread) : FirstFormula f kept kept [] := by
  obtain ⟨lead, text, gap, hkept, hlead, hdenotes, hgap, hstops⟩ := h.kept_eq
  refine ⟨by simp, ⟨lead, text, gap, hkept, hlead, hdenotes, hgap, ?_⟩, by simp⟩
  rw [List.append_nil]
  by_cases hne : gap = []
  · rw [hne]
    exact endsWord_nil.stopsAt
  · exact (Formula.stopsAt_append_iff hne).1 hstops

/-! ## Warnings -/

/-- The rows start with the formulas. The warnings are one for each row that goes on with text behind its
formula and the blanks that follow it: they hold the number of the row, the column where this text starts
and the text. -/
inductive Reports : List Row → List Formula → List Warning → Prop
  | nil : Reports [] [] []
  | whole {row : Row} {rows : List Row} {f : Formula} {fs : List Formula} {warnings : List Warning} :
      FirstFormula f row.text row.text [] → Reports rows fs warnings →
      Reports (row :: rows) (f :: fs) warnings
  | unread {row : Row} {rows : List Row} {f : Formula} {fs : List Formula} {warnings : List Warning}
      {kept rest : List Char} {c : Char} :
      FirstFormula f row.text kept (c :: rest) → Reports rows fs warnings →
      Reports (row :: rows) (f :: fs)
        (⟨row.number, kept.length + 1, String.ofList (c :: rest)⟩ :: warnings)

namespace Source

variable {source : Source} {limits : Limits} {cs : List Clause}

theorem outcome_clause_of_firstFormula (h : FirstFormula f row.text kept unread)
    (hdepth : f.depth ≤ limits.depth) :
    (source.clause limits row).outcome = (.ok ⟨f, source.id, row.wholeSpan⟩,
      (OpenLine.unread? ⟨source, row, ⟨kept.reverse ++ [], unread⟩⟩).toArray) := by
  rw [outcome_clause, OpenLine.clause_of_firstFormula h hdepth]
  rfl

/-- Rows that start with formulas within the depth limit give these, with the warnings about the rows. -/
theorem outcome_mapM_reports (h : Reports rows fs warnings) (hdepth : ∀ f ∈ fs, f.depth ≤ limits.depth) :
    ∃ cs : List Clause, (rows.mapM (source.clause limits)).outcome = (.ok cs, warnings.toArray) ∧
      cs.map (·.formula) = fs := by
  induction h with
  | nil => exact ⟨[], rfl, rfl⟩
  | @whole row rows f fs warnings hfirst _ ih =>
    rw [List.forall_mem_cons] at hdepth
    obtain ⟨cs, hread, rfl⟩ := ih hdepth.2
    refine ⟨⟨f, source.id, row.wholeSpan⟩ :: cs, ?_, rfl⟩
    rw [Reporting.outcome_mapM_cons (source.appends_clause limits),
      outcome_clause_of_firstFormula hfirst hdepth.1, hread]
    simp [Reporting.chain, Except.map, OpenLine.unread?]
  | @unread row rows f fs warnings kept rest c hfirst _ ih =>
    rw [List.forall_mem_cons] at hdepth
    obtain ⟨cs, hread, rfl⟩ := ih hdepth.2
    refine ⟨⟨f, source.id, row.wholeSpan⟩ :: cs, ?_, rfl⟩
    rw [Reporting.outcome_mapM_cons (source.appends_clause limits),
      outcome_clause_of_firstFormula hfirst hdepth.1, hread]
    simp [Reporting.chain, Except.map, OpenLine.unread?]

/-- Rows that are read as well-formed formulas start with these, and there are warnings to give of them. -/
theorem exists_reports (h : List.Forall₂ (fun row c => (source.clause limits row).outcome.1 = .ok c) rows cs)
    (hvalid : ∀ c ∈ cs, c.formula.WellFormed) :
    (∃ warnings, Reports rows (cs.map (·.formula)) warnings) ∧
      ∀ f ∈ cs.map (·.formula), f.depth ≤ limits.depth := by
  induction h with
  | nil => exact ⟨⟨[], .nil⟩, by simp⟩
  | @cons row c rows cs hc _ ih =>
    rw [List.forall_mem_cons] at hvalid
    obtain ⟨⟨warnings, hrows⟩, hdepths⟩ := ih hvalid.2
    have hread := OpenLine.result_clause_eq_ok (clause_eq_ok_iff.1 hc).1
    obtain ⟨hdepth, kept, unread, hfirst, -⟩ :=
      (Reader.clause_eq_ok_iff_firstFormula hvalid.1.named.ne_empty []).1 hread
    refine ⟨?_, List.forall_mem_cons.2 ⟨hdepth, hdepths⟩⟩
    cases unread with
    | nil =>
      have hkept : row.text = kept := by simpa using hfirst.line_eq
      rw [← hkept] at hfirst
      exact ⟨warnings, .whole hfirst hrows⟩
    | cons d rest => exact ⟨_, .unread hfirst hrows⟩

theorem reports_of_clauses {given : Array Warning} (h : (source.clauses limits).outcome = (.ok cs, given))
    (hvalid : ∀ c ∈ cs, c.formula.WellFormed) :
    Reports source.clauseRows (cs.map (·.formula)) given.toList ∧
      ∀ f ∈ cs.map (·.formula), f.depth ≤ limits.depth := by
  obtain ⟨hsize, hrows⟩ := clauses_eq_ok_iff.1 (congrArg Prod.fst h)
  obtain ⟨⟨warnings, hreports⟩, hdepth⟩ := exists_reports hrows hvalid
  obtain ⟨others, hread, -⟩ := @outcome_mapM_reports _ _ _ source limits hreports hdepth
  rw [outcome_clauses hsize] at h
  obtain ⟨-, rfl⟩ := Prod.mk.inj (h.symm.trans hread)
  exact ⟨hreports, hdepth⟩

end Source

/-! ## Numbers -/

theorem number_le_of_mem_numbered {offset number : Nat} (h : row ∈ numbered offset number ls) :
    number ≤ row.number := by
  induction ls generalizing offset number with
  | nil => cases h
  | cons line ls ih =>
    rcases List.mem_cons.1 h with rfl | h
    · exact Nat.le_refl number
    · exact Nat.le_of_succ_le (ih h)

theorem Reports.exists_row (h : Reports rows fs warnings) :
    ∀ w ∈ warnings, ∃ row ∈ rows, row.number = w.line := by
  induction h with
  | nil => simp
  | whole _ _ ih =>
    intro w hw
    obtain ⟨row, hrow, hnumber⟩ := ih w hw
    exact ⟨row, List.mem_cons_of_mem _ hrow, hnumber⟩
  | unread _ _ ih =>
    refine List.forall_mem_cons.2 ⟨⟨_, List.mem_cons_self, rfl⟩, fun w hw => ?_⟩
    obtain ⟨row, hrow, hnumber⟩ := ih w hw
    exact ⟨row, List.mem_cons_of_mem _ hrow, hnumber⟩

/-- The warnings about later lines have later numbers. -/
theorem Reports.find?_eq_none {offset number : Nat}
    (h : Reports ((numbered offset (number + 1) ls).filter (!·.isIdle)) fs warnings) :
    warnings.find? (·.line == number) = none := by
  rw [List.find?_eq_none]
  intro w hw
  obtain ⟨row, hrow, hnumber⟩ := h.exists_row w hw
  have hle := number_le_of_mem_numbered (List.mem_of_mem_filter hrow)
  simp only [beq_iff_eq]
  omega

/-! ## Cutting -/

/-- Cuts the line with a number at the column that the first warning about it names. -/
def Line.cut (warnings : List Warning) (number : Nat) (line : Line) : Line :=
  match warnings.find? (·.line == number) with
  | some w => { line with text := line.text.take (w.column - 1) }
  | none => line

/-- Cuts lines that are numbered one after the other. -/
def cutLines (warnings : List Warning) : (number : Nat) → List Line → List Line
  | _, [] => []
  | number, line :: ls => line.cut warnings number :: cutLines warnings (number + 1) ls

/-- Cuts the lines of a source where warnings point. What ends a line stays. -/
def Source.cut (source : Source) (warnings : List Warning) : Source where
  id := source.id
  text := String.ofList ((cutLines warnings 1 (lines source.text.toList)).flatMap Line.chars)

theorem Line.cut_of_none {warnings : List Warning} {number : Nat} {line : Line}
    (h : warnings.find? (·.line == number) = none) : line.cut warnings number = line := by
  rw [cut, h]

theorem Line.cut_of_some {warnings : List Warning} {number : Nat} {line : Line} {w : Warning}
    (h : warnings.find? (·.line == number) = some w) :
    line.cut warnings number = { line with text := line.text.take (w.column - 1) } := by
  rw [cut, h]

/-- A line only loses characters at its end. -/
theorem Line.exists_cut (warnings : List Warning) (number : Nat) (line : Line) :
    ∃ count, line.cut warnings number = { line with text := line.text.take count } := by
  cases h : warnings.find? (·.line == number) with
  | none => exact ⟨line.text.length, by rw [cut_of_none h, List.take_length]⟩
  | some w => exact ⟨_, cut_of_some h⟩

theorem byteLength_cutLines_le (warnings : List Warning) (number : Nat) (ls : List Line) :
    byteLength ((cutLines warnings number ls).flatMap Line.chars) ≤
      byteLength (ls.flatMap Line.chars) := by
  induction ls generalizing number with
  | nil => exact Nat.le_refl _
  | cons line ls ih =>
    obtain ⟨count, hcut⟩ := line.exists_cut warnings number
    have hrest := ih (number + 1)
    have hline := byteLength_append (line.text.take count) (line.text.drop count)
    rw [List.take_append_drop] at hline
    rw [cutLines, hcut, List.flatMap_cons, List.flatMap_cons, byteLength_append, byteLength_append]
    simp only [Line.chars, byteLength_append]
    omega

theorem Source.utf8ByteSize_cut_le (source : Source) (warnings : List Warning) :
    (source.cut warnings).text.utf8ByteSize ≤ source.text.utf8ByteSize := by
  have hle := byteLength_cutLines_le warnings 1 (lines source.text.toList)
  rw [flatMap_chars_lines, byteLength_toList] at hle
  rwa [cut, ← byteLength_toList, String.toList_ofList]

theorem Separated.cutLines (h : Separated ls) (warnings : List Warning) (number : Nat) :
    Separated (cutLines warnings number ls) := by
  induction h generalizing number with
  | nil => exact .nil
  | @last text htext =>
    obtain ⟨count, hcut⟩ := Line.exists_cut warnings number ⟨text, none⟩
    rw [Consequence.cutLines, hcut]
    exact .last fun c hc => htext c (List.mem_of_mem_take hc)
  | @cons text ls terminator htext _ ih =>
    obtain ⟨count, hcut⟩ := Line.exists_cut warnings number ⟨text, some terminator⟩
    rw [Consequence.cutLines, hcut]
    exact .cons terminator (fun c hc => htext c (List.mem_of_mem_take hc)) (ih _)

/-- Only what is behind the first formulas is cut off, so the rows that are not skipped start with the same
formulas as before, and with nothing behind them. Of all warnings those about the lines ahead matter. -/
theorem Reports.busy_cutLines {all : List Warning} {offset number : Nat}
    (h : Reports ((numbered offset number ls).filter (!·.isIdle)) fs warnings)
    (hall : ∀ n, number ≤ n → all.find? (·.line == n) = warnings.find? (·.line == n)) (start : Nat) :
    List.Forall₂ (fun place f => FirstFormula f place.2 place.2 []) (busy start (cutLines all number ls))
      fs := by
  induction ls generalizing offset number fs warnings start with
  | nil =>
    cases h
    exact .nil
  | cons line ls ih =>
    -- the warnings that are left are about this line or, if it has none, about later ones
    have hhere := hall number (Nat.le_refl number)
    have hlater (n : Nat) (hn : number + 1 ≤ n) := hall n (Nat.le_of_succ_le hn)
    have hidle : Row.isIdle ⟨offset, number, line.text⟩ = isIdleText line.text := rfl
    rw [numbered, List.filter_cons, hidle] at h
    rw [cutLines, busy]
    cases hline : isIdleText line.text with
    | true =>
      rw [hline] at h
      have hcut : line.cut all number = line := Line.cut_of_none (hhere.trans h.find?_eq_none)
      rw [hcut, hline]
      exact ih h hlater _
    | false =>
      rw [hline] at h
      cases h with
      | whole hfirst hrest =>
        have hcut : line.cut all number = line := Line.cut_of_none (hhere.trans hrest.find?_eq_none)
        rw [hcut, hline]
        exact .cons hfirst (ih hrest hlater _)
      | @unread _ _ f fs others kept rest c hfirst hrest =>
        have hkept : line.text.take kept.length = kept := by
          rw [show line.text = kept ++ c :: rest from hfirst.line_eq, List.take_left]
        have hcut : line.cut all number = { line with text := kept } := by
          rw [Line.cut_of_some (hhere.trans (List.find?_cons_of_pos (by simp)))]
          simp only [Nat.add_sub_cancel, hkept]
        -- the cut line still has its formula, so it is not skipped
        rw [hcut, hfirst.isIdleText]
        refine .cons hfirst.whole (ih hrest (fun n hn => ?_) _)
        rw [hlater n hn, List.find?_cons_of_neg]
        simp only [beq_iff_eq]
        omega

theorem reports_of_forall₂
    (h : List.Forall₂ (fun row f => FirstFormula f row.text row.text []) rows fs) : Reports rows fs [] := by
  induction h with
  | nil => exact .nil
  | cons hfirst _ ih => exact .whole hfirst ih

/-- The rows of a source that is cut where its warnings point start with the formulas of the source, and
nothing is behind them. -/
theorem Reports.clauseRows_cut {source : Source} (h : Reports source.clauseRows fs warnings) :
    Reports (source.cut warnings).clauseRows fs [] := by
  rw [Source.clauseRows, rows_eq_numbered] at h
  have hplaces := h.busy_cutLines (fun _ _ => rfl) 0
  rw [← ((separated_lines _).cutLines warnings 1).busy_flatMap, ← filter_numbered 0 1,
    List.forall₂_map_left_iff] at hplaces
  rw [Source.clauseRows, rows_eq_numbered, Source.cut, String.toList_ofList]
  exact reports_of_forall₂ hplaces

namespace Source

/-- **What is not read is reported and has no influence**: where a source gives clauses that are all well
formed, each row that is not skipped starts with the formula of its clause, and the warnings are, in this
order, one for each row that goes on behind it. Cut where the warnings point, the source gives the same
formulas and no warning. -/
theorem unread_reported {source : Source} {limits : Limits} {cs : List Clause} {given : Array Warning}
    (h : (source.clauses limits).outcome = (.ok cs, given)) (hvalid : ∀ c ∈ cs, c.formula.WellFormed) :
    Reports source.clauseRows (cs.map (·.formula)) given.toList ∧
      ∃ others : List Clause,
        ((source.cut given.toList).clauses limits).outcome = (.ok others, #[]) ∧
        others.map (·.formula) = cs.map (·.formula) := by
  obtain ⟨hreports, hdepth⟩ := reports_of_clauses h hvalid
  refine ⟨hreports, ?_⟩
  have hsize := (clauses_eq_ok_iff.1 (congrArg Prod.fst h)).1
  rw [outcome_clauses ((source.utf8ByteSize_cut_le given.toList).trans hsize), ← clauseRows]
  exact outcome_mapM_reports hreports.clauseRows_cut hdepth

/-- A comment, a clause between blanks of three and of two bytes in front of a closing parenthesis, a clause
that goes on with blanks only, and one with the start of a form right behind it. -/
def overfull : Source :=
  ⟨"kb", "# (\r\n\u2003(or p é)\u00a0) q \r\rp\u00a0\n(not p)(q"⟩

set_option maxRecDepth 3000 in
theorem unread_reported_overfull :
    ∃ cs : List Clause, (overfull.clauses {}).outcome = (.ok cs, #[⟨2, 11, ") q "⟩, ⟨5, 8, "(q"⟩]) ∧
      Reports overfull.clauseRows (cs.map (·.formula)) [⟨2, 11, ") q "⟩, ⟨5, 8, "(q"⟩] ∧
      ∃ others : List Clause,
        (Source.clauses ⟨"kb", "# (\r\n\u2003(or p é)\u00a0\r\rp\u00a0\n(not p)"⟩ {}).outcome =
          (.ok others, #[]) ∧
        others.map (·.formula) = cs.map (·.formula) := by
  have hread : (overfull.clauses {}).outcome = (.ok
      [⟨.node .or [.atom "p", .atom "é"], "kb", ⟨5, 23, 2, 1⟩⟩,
        ⟨.atom "p", "kb", ⟨25, 28, 4, 1⟩⟩, ⟨.node .not [.atom "p"], "kb", ⟨29, 38, 5, 1⟩⟩],
      #[⟨2, 11, ") q "⟩, ⟨5, 8, "(q"⟩]) := by
    cbv
  have hcut : overfull.cut [⟨2, 11, ") q "⟩, ⟨5, 8, "(q"⟩] =
      ⟨"kb", "# (\r\n\u2003(or p é)\u00a0\r\rp\u00a0\n(not p)"⟩ := by
    cbv
  have hcounts : Connective.or.arity.accepts 2 = true ∧ Connective.not.arity.accepts 1 = true := by decide
  have hsymbols : IsSymbol "p" ∧ IsSymbol "é" := by decide +kernel
  have hp : (Formula.atom "p").WellFormed := Formula.wellFormed_atom_iff.2 hsymbols.1
  have he : (Formula.atom "é").WellFormed := Formula.wellFormed_atom_iff.2 hsymbols.2
  obtain ⟨hreports, hreread⟩ := unread_reported hread
    (by simp [Formula.wellFormed_node_iff, hcounts, hp, he])
  rw [← hcut]
  exact ⟨_, hread, hreports, hreread⟩

end Source

end Consequence
