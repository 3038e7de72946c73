import Mathlib
import Consequence.Proofs.Listing
import Consequence.Proofs.Sharpening

/-!
# Questions as texts and as formulas

A formula can be checked as it is, or it can be written into a source that is then read and checked. The
source may hold comments and blank lines, and blanks around the formula. Either way the outcome is the
same.

* `Presents`: the texts that a formula is written into.
* `Presents.busy`: such a text has one row with a clause, the prefix form between blanks.
* `Statement.ofSource_presents`: so the formula is read from it, without a warning.
* `KnowledgeBase.check_of_read`: behind the reading, both checks take the same steps.
* `KnowledgeBase.check_presented`: the outcome of both checks.
-/

set_option autoImplicit false

namespace Consequence

/-! ## Texts -/

/-- Blanks that do not end a line. -/
def Indents (text : List Char) : Prop :=
  ∀ c ∈ text, isBlank c = true ∧ isBreak c = false

instance (text : List Char) : Decidable (Indents text) := List.decidableBAll _ _

/-- A comment or a blank line. -/
inductive IdleLine : List Char → Prop
  | comment {text : List Char} : (∀ c ∈ text, isBreak c = false) → IdleLine ('#' :: text)
  | blank {text : List Char} : Indents text → IdleLine text

/-- Comments and blank lines. The last one need not have a terminator, and may be empty. -/
inductive IdleLines : List Char → Prop
  | last {line : List Char} : IdleLine line → IdleLines line
  | cons {line rest : List Char} (terminator : Terminator) : IdleLine line → IdleLines rest →
    IdleLines (line ++ (terminator.chars ++ rest))

/-- A line with the prefix form of a formula between blanks. -/
inductive Written (f : Formula) : List Char → Prop
  | mk {left right : List Char} : Indents left → Indents right →
    Written f (left ++ f.prefixForm ++ right)

/-- Comments, blank lines and one line with the prefix form of a formula between blanks. The last line
need not have a terminator, and may be empty. -/
inductive Presents (f : Formula) : List Char → Prop
  | last {line : List Char} : Written f line → Presents f line
  | line {line rest : List Char} (terminator : Terminator) : Written f line → IdleLines rest →
    Presents f (line ++ (terminator.chars ++ rest))
  | idle {line rest : List Char} (terminator : Terminator) : IdleLine line → Presents f rest →
    Presents f (line ++ (terminator.chars ++ rest))

/-! ## Rows -/

theorem IdleLine.isBreak_eq_false {line : List Char} (h : IdleLine line) :
    ∀ c ∈ line, isBreak c = false := by
  cases h with
  | comment h => exact List.forall_mem_cons.2 ⟨rfl, h⟩
  | blank h => exact fun c hc => (h c hc).2

theorem IdleLine.isIdleText {line : List Char} (h : IdleLine line) : isIdleText line = true := by
  cases h with
  | comment h => rfl
  | blank h =>
    have hall : line.all isBlank = true := List.all_eq_true.2 fun c hc => (h c hc).1
    simp [Consequence.isIdleText, hall]

theorem IdleLines.busy_eq_nil {text : List Char} (h : IdleLines text) (offset : Nat) :
    busy offset (lines text) = [] := by
  induction h generalizing offset with
  | last h => rw [busy_last h.isBreak_eq_false, h.isIdleText]; rfl
  | cons terminator h _ ih => rw [busy_line h.isBreak_eq_false, h.isIdleText, ih]; rfl

section
variable {f : Formula} {line text : List Char}

theorem Written.isBreak_eq_false (h : Written f line) (hnamed : f.Named) :
    ∀ c ∈ line, isBreak c = false := by
  obtain ⟨hleft, hright⟩ := h
  intro c hc
  simp only [List.mem_append] at hc
  rcases hc with (hc | hc) | hc
  · exact (hleft c hc).2
  · exact f.isBreak_prefixForm hnamed c hc
  · exact (hright c hc).2

theorem Written.isIdleText (h : Written f line) (hnamed : f.Named) : isIdleText line = false := by
  obtain ⟨hleft, hright⟩ := h
  exact (f.firstFormula_whole (fun c hc => (hleft c hc).1) (fun c hc => (hright c hc).1)
    hnamed).isIdleText

/-- Of all rows only that of the formula has a clause. -/
theorem Presents.busy (h : Presents f text) (hnamed : f.Named) (offset : Nat) :
    ∃ start line, Written f line ∧ busy offset (lines text) = [(start, line)] := by
  induction h generalizing offset with
  | last h =>
    refine ⟨offset, _, h, ?_⟩
    rw [busy_last (h.isBreak_eq_false hnamed), h.isIdleText hnamed]
    rfl
  | line terminator h hrest =>
    refine ⟨offset, _, h, ?_⟩
    rw [busy_line (h.isBreak_eq_false hnamed), h.isIdleText hnamed, hrest.busy_eq_nil]
    rfl
  | idle terminator h _ ih =>
    obtain ⟨start, line, hline, hbusy⟩ := ih _
    refine ⟨start, line, hline, ?_⟩
    rw [busy_line h.isBreak_eq_false, h.isIdleText, hbusy]
    rfl

end

/-! ## Reading -/

theorem Source.outcome_clauses_presents {f : Formula} {text : List Char} {limits : Limits}
    (h : Presents f text) (hnamed : f.Named) (hdepth : f.depth ≤ limits.depth)
    (hsize : byteLength text ≤ limits.sourceBytes) (id : String) :
    ∃ c : Clause, (Source.clauses ⟨id, String.ofList text⟩ limits).outcome = (.ok [c], #[]) ∧
      c.formula = f := by
  obtain ⟨start, line, hwritten, hbusy⟩ := h.busy hnamed 0
  rw [← filter_numbered 0 1, ← rows_eq_numbered, List.map_eq_singleton_iff] at hbusy
  obtain ⟨row, hrows, hrow⟩ := hbusy
  obtain ⟨-, htext⟩ := Prod.mk.inj hrow
  obtain ⟨hleft, hright⟩ := hwritten
  have hclause : (Source.clause ⟨id, String.ofList text⟩ limits row).outcome =
      (.ok ⟨f, id, row.wholeSpan⟩, #[]) := by
    unfold Reporting.outcome
    rw [clause_of_text (fun c hc => (hleft c hc).1) (fun c hc => (hright c hc).1) hnamed hdepth htext]
  have hsize' : (String.ofList text).utf8ByteSize ≤ limits.sourceBytes := by
    rw [← byteLength_toList, String.toList_ofList]
    exact hsize
  refine ⟨⟨f, id, row.wholeSpan⟩, ?_, rfl⟩
  rw [outcome_clauses hsize', String.toList_ofList, hrows,
    Reporting.outcome_mapM_cons (Source.appends_clause _ _), hclause]
  rfl

/-- A well-formed formula is read from a text that presents it. -/
theorem Statement.ofSource_presents {f : Formula} {text : List Char} {limits : Limits}
    (h : Presents f text) (hf : f.WellFormed) (hdepth : f.depth ≤ limits.depth)
    (hsize : byteLength text ≤ limits.sourceBytes) (id : String) :
    ∃ q : Statement, (Statement.ofSource ⟨id, String.ofList text⟩ limits).outcome = (.ok q, #[]) ∧
      q.formula = f := by
  obtain ⟨c, hclauses, rfl⟩ := Source.outcome_clauses_presents h hf.named hdepth hsize id
  refine ⟨⟨c, hf⟩, ?_, rfl⟩
  have haccepted : ofClause c (String.ofList text) = .ok ⟨c, hf⟩ := ofClause_eq_ok_iff.2 rfl
  rw [outcome_ofSource, hclauses]
  simp only [Reporting.chain, haccepted]
  rfl

/-! ## Checks -/

/-- A check looks at the formula of a statement only, not at the place it was read from. -/
theorem ValidBase.judge_congr (base : ValidBase) {p q : Statement} (h : p.formula = q.formula) :
    base.judge p = base.judge q := by
  have hsymbols : base.symbolsWith p = base.symbolsWith q := by simp only [symbolsWith, h]
  have hfree : base.freeSymbols p = base.freeSymbols q := by simp only [freeSymbols, hsymbols]
  have htabulate : base.tabulate p = base.tabulate q := by simp only [tabulate, hsymbols, h]
  unfold judge
  rw [hfree, htabulate]

namespace KnowledgeBase

theorem checkStatement_congr (kb : KnowledgeBase) {p q : Statement} (h : p.formula = q.formula) :
    kb.checkStatement p = kb.checkStatement q := by
  simp only [checkStatement, ValidBase.judge_congr _ h]

/-- A check rejects the base or names a limit that was exceeded, or tabulates. -/
theorem checkStatement_cases (kb : KnowledgeBase) (q : Statement) :
    (∃ e, kb.validate = .error e ∧ kb.checkStatement q = .error e) ∨
      ∃ base, kb.validate = .ok base ∧
        ((∃ limit, kb.limits.freeSymbols = some limit ∧ limit < (base.freeSymbols q).length ∧
            kb.checkStatement q =
              .error (.excess (.freeSymbols limit (base.freeSymbols q).length))) ∨
          kb.checkStatement q = .ok (base.tabulate q)) := by
  cases hvalid : kb.validate with
  | error e =>
    refine .inl ⟨e, rfl, ?_⟩
    rw [checkStatement, hvalid]
    rfl
  | ok base =>
    have hcheck : kb.checkStatement q = base.judge q := by
      rw [checkStatement, hvalid]
      rfl
    have hlimits : base.limits = kb.limits := by rw [validate_eq_ok_iff.1 hvalid]
    refine .inr ⟨base, rfl, ?_⟩
    rw [hcheck, ← hlimits]
    cases hjudge : base.judge q with
    | error e =>
      obtain ⟨limit, hset, hless, rfl⟩ := ValidBase.judge_eq_error_iff.1 hjudge
      exact .inl ⟨limit, hset, hless, rfl⟩
    | ok e =>
      obtain ⟨-, rfl⟩ := ValidBase.judge_eq_ok_iff.1 hjudge
      exact .inr rfl

/-- Behind a statement that was read without a warning, the check is that of the statement. -/
theorem check_of_read {kb : KnowledgeBase} {source : Source} {q : Statement}
    (hread : (Statement.ofSource source kb.limits).outcome = (.ok q, #[])) :
    (kb.check source).outcome = (kb.checkStatement q, #[]) := by
  have hjudge (base : ValidBase) (p : Statement) : (Reporting.ofExcept (base.judge p)).Appends :=
    Reporting.appends_ofExcept _
  unfold check checkStatement
  rw [Reporting.outcome_bind fun base => (Statement.appends_ofSource _ _).bind (hjudge base),
    Reporting.outcome_ofExcept]
  cases kb.validate with
  | error e => rfl
  | ok base =>
    simp only [Reporting.chain]
    rw [Reporting.outcome_bind (hjudge base), hread]
    simp only [Reporting.chain, Reporting.outcome_ofExcept]
    rfl

/-- **A text and its formula are checked alike**: whatever the base is, a well-formed formula that is
within the limits is accepted as a statement, and to check it gives what the check of any text gives
that presents it, without a warning: the error that rejects the base, or the limit on free symbols
that is exceeded, or the entailment. -/
theorem check_presented {f : Formula} {text : List Char} {kb : KnowledgeBase} (h : Presents f text)
    (hf : f.WellFormed) (hdepth : f.depth ≤ kb.limits.depth)
    (hsize : byteLength text ≤ kb.limits.sourceBytes) (id : String) :
    ∃ q, Statement.ofFormula f = .ok q ∧
      (kb.check ⟨id, String.ofList text⟩).outcome = (kb.checkStatement q, #[]) ∧
      ((∃ e, kb.validate = .error e ∧ kb.checkStatement q = .error e) ∨
        ∃ base, kb.validate = .ok base ∧
          ((∃ limit, kb.limits.freeSymbols = some limit ∧ limit < (base.freeSymbols q).length ∧
              kb.checkStatement q =
                .error (.excess (.freeSymbols limit (base.freeSymbols q).length))) ∨
            kb.checkStatement q = .ok (base.tabulate q))) := by
  obtain ⟨p, hread, rfl⟩ := Statement.ofSource_presents h hf hdepth hsize id
  let q : Statement := ⟨.inMemory p.formula, hf⟩
  refine ⟨q, Statement.ofClause_eq_ok_iff.2 rfl, ?_, kb.checkStatement_cases q⟩
  have hsame : kb.checkStatement p = kb.checkStatement q := kb.checkStatement_congr rfl
  rw [check_of_read hread, hsame]

/-- The statement `(not q)`. -/
def askingNotQ : Statement where
  clause := .inMemory (.node .not [.atom "q"])
  wellFormed := by
    simp [Clause.inMemory, Formula.wellFormed_node_iff, Formula.wellFormed_atom_iff]
    decide

/-- The statement behind a comment, between blanks, with another comment behind it. -/
def commentedNotQ : List Char :=
  "# q?\r\n\u00a0(not q) \t\r#".toList

/-- The text is refuted by the base of `(or p q)` and `(not p)`, as the statement is. -/
theorem check_presented_disjunctive :
    let kb := ValidBase.disjunctive.toKnowledgeBase
    Presents askingNotQ.formula commentedNotQ ∧ askingNotQ.formula.depth ≤ kb.limits.depth ∧
      byteLength commentedNotQ ≤ kb.limits.sourceBytes ∧
      ∃ e, (kb.check ⟨"s", String.ofList commentedNotQ⟩).outcome = (.ok e, #[]) ∧
        e.verdict = .refuted := by
  intro kb
  have htext : commentedNotQ = '#' :: [' ', 'q', '?'] ++ (Terminator.crlf.chars ++
      (['\u00a0'] ++ askingNotQ.formula.prefixForm ++ [' ', '\t'] ++
        (Terminator.cr.chars ++ ['#']))) := by cbv
  have hpresents : Presents askingNotQ.formula commentedNotQ := by
    rw [htext]
    refine .idle .crlf (.comment ?_) (.line .cr (.mk ?_ ?_) (.last (.comment ?_)))
    · simp [isBreak]
    · decide
    · decide
    · simp
  have hdepth : askingNotQ.formula.depth ≤ kb.limits.depth := by cbv
  have hlength : byteLength commentedNotQ = 19 := by cbv
  have hsize : byteLength commentedNotQ ≤ kb.limits.sourceBytes := by
    rw [hlength]
    decide
  obtain ⟨q, hq, hcheck, -⟩ :=
    @check_presented askingNotQ.formula commentedNotQ kb hpresents askingNotQ.wellFormed hdepth hsize "s"
  obtain rfl : q = askingNotQ := by
    obtain ⟨clause, hformed⟩ := q
    obtain rfl : clause = askingNotQ.clause := Statement.ofClause_eq_ok_iff.1 hq
    rfl
  have hvalid : kb.validate = .ok ValidBase.disjunctive := validate_eq_ok_iff.2 rfl
  refine ⟨hpresents, hdepth, hsize, ValidBase.disjunctive.tabulate askingNotQ, ?_, by cbv⟩
  rw [hcheck, checkStatement, hvalid]
  rfl

end KnowledgeBase

end Consequence
