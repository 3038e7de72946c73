import Mathlib
import Consequence.Proofs.Defects
import Consequence.Proofs.Locations
import Consequence.Proofs.Runs

/-!
# Rejected clauses and the texts they are shown in

A base that is not accepted names its first clause with a defect by the span of the row that it was read
from, and carries the text that is stored under the id of its source: the last one that was added under
it, which need not be the one that has the row.

* `KnowledgeBase.validate_eq_error_iff`: which clause is rejected, and how.
* `KnowledgeBase.history_adds`: a run in which every source is added.
* `KnowledgeBase.validate_names_row`: the row of the rejected clause, and when its span is shown in its
  own text.
* `KnowledgeBase.not_forall_validate_shows_row`: an id that names two texts.
-/

set_option autoImplicit false

namespace Consequence

/-- The clause has a defect. -/
def Clause.isDefective (c : Clause) : Bool :=
  c.formula.defect?.isSome

theorem Clause.isDefective_eq_false_iff {c : Clause} :
    c.isDefective = false ↔ c.formula.WellFormed := by
  rw [isDefective, ← Formula.defect?_eq_none_iff, Option.isSome_eq_false_iff, Option.isNone_iff_eq_none]

/-- The text of the last source with an id, empty if there is none. -/
def lastText (sources : List Source) (id : String) : String :=
  ((sources.filterMap fun s => if s.id = id then some s.text else none).getLast?).getD ""

namespace KnowledgeBase

variable {kb : KnowledgeBase} {limits : Limits} {sources : List Source}

/-! ## Which clause is rejected -/

theorem validate_eq_error_iff {e : Error} :
    kb.validate = .error e ↔ ∃ c violation, kb.clauses.find? Clause.isDefective = some c ∧
      c.formula.defect? = some violation ∧
      e = .located ⟨.rejectedClause violation c.formula, c.span,
        ⟨c.sourceId, kb.sourceText c.sourceId⟩⟩ := by
  rw [validate_eq_error_iff_rejection?, rejection?]
  generalize kb.clauses = clauses
  induction clauses with
  | nil => simp
  | cons c clauses ih =>
    rw [List.findSome?_cons, List.find?_cons]
    cases hdefect : c.formula.defect? with
    | none =>
      have haccepted : c.rejection? (kb.sourceText c.sourceId) = none := by
        rw [Clause.rejection?, hdefect, Option.map_none]
      simpa only [haccepted, Clause.isDefective, hdefect, Option.isSome_none] using ih
    | some violation => simp [Clause.rejection?, Clause.isDefective, hdefect, eq_comm]

/-! ## Runs in which every source is added -/

/-- The event of a source that is added. -/
def addedEvent (source : Source) : Event :=
  (.add source, .added source.clauseRows.length)

theorem history_adds
    (hadded : ∀ event ∈ kb.history (sources.map .add), ∃ count, event.2 = .added count) :
    kb.history (sources.map .add) = sources.map addedEvent := by
  induction sources generalizing kb with
  | nil => rfl
  | cons source sources ih =>
    obtain ⟨⟨count, hcount⟩, hrest⟩ := List.forall_mem_cons.1 hadded
    have hanswered := (kb.grown_change (.add source)).answered _ (List.mem_singleton_self _)
    replace hcount : (kb.change (.add source)).1 = .added count := hcount
    rw [hcount] at hanswered
    rw [List.map_cons, List.map_cons, history, ih hrest, hcount, hanswered.2.2, addedEvent]

theorem clauses_run_adds
    (hadded : ∀ event ∈ ({ limits } : KnowledgeBase).history (sources.map .add),
      ∃ count, event.2 = .added count) :
    (({ limits } : KnowledgeBase).run (sources.map .add)).clauses =
      sources.flatMap (·.rowClauses limits) := by
  have hgrown := ({ limits } : KnowledgeBase).grown_run (sources.map .add)
  rw [history_adds hadded] at hgrown
  rw [hgrown.clauses, List.flatMap_map]
  rfl

theorem sourceText_run_adds
    (hadded : ∀ event ∈ ({ limits } : KnowledgeBase).history (sources.map .add),
      ∃ count, event.2 = .added count) (id : String) :
    (({ limits } : KnowledgeBase).run (sources.map .add)).sourceText id = lastText sources id := by
  have hgrown := ({ limits } : KnowledgeBase).grown_run (sources.map .add)
  rw [history_adds hadded] at hgrown
  rw [hgrown.text, List.filterMap_map]
  rfl

theorem validate_run_adds_eq_error_iff
    (hadded : ∀ event ∈ ({ limits } : KnowledgeBase).history (sources.map .add),
      ∃ count, event.2 = .added count) {e : Error} :
    (({ limits } : KnowledgeBase).run (sources.map .add)).validate = .error e ↔
      ∃ c violation, (sources.flatMap (·.rowClauses limits)).find? Clause.isDefective = some c ∧
        c.formula.defect? = some violation ∧
        e = .located ⟨.rejectedClause violation c.formula, c.span,
          ⟨c.sourceId, lastText sources c.sourceId⟩⟩ := by
  rw [validate_eq_error_iff, clauses_run_adds hadded]
  simp only [sourceText_run_adds hadded]

/-! ## The row of the rejected clause -/

/-- **A rejected clause is named by its row**: where all sources were added and the base is rejected, the
error names the first row, by sources and then by rows, that was read as a clause with a defect. The
text that the error carries is the last one that was added under the id of its source; where that is the
text of its own source, the span is in range and shows the row. -/
theorem validate_names_row {d : Diagnosis}
    (hadded : ∀ event ∈ ({ limits } : KnowledgeBase).history (sources.map .add),
      ∃ count, event.2 = .added count)
    (hrejected : (({ limits } : KnowledgeBase).run (sources.map .add)).validate =
      .error (.located d)) :
    ∃ earlier source later before row after c violation,
      sources = earlier ++ source :: later ∧ source.clauseRows = before ++ row :: after ∧
      (∀ s ∈ earlier, ∀ b ∈ s.rowClauses limits, b.formula.WellFormed) ∧
      (∀ r ∈ before, ∀ b, (source.clause limits r).outcome.1 = .ok b → b.formula.WellFormed) ∧
      (source.clause limits row).outcome.1 = .ok c ∧ c.formula.defect? = some violation ∧
      d = ⟨.rejectedClause violation c.formula, row.wholeSpan,
        ⟨source.id, lastText sources source.id⟩⟩ ∧
      (lastText sources source.id = source.text →
        d.span.start ≤ d.span.stop ∧ d.span.stop ≤ d.source.text.utf8ByteSize ∧
          d.span.bytes d.source.text = (String.ofList row.text).toByteArray) := by
  obtain ⟨c, violation, hfirst, hdefect, hd⟩ := (validate_run_adds_eq_error_iff hadded).1 hrejected
  obtain rfl := Error.located.inj hd
  rw [List.find?_flatMap, List.findSome?_eq_some_iff] at hfirst
  obtain ⟨earlier, source, later, rfl, hsource, hearlier⟩ := hfirst
  rw [Source.rowClauses, List.find?_filterMap, Option.bind_eq_some_iff] at hsource
  obtain ⟨row, hrow, hread⟩ := hsource
  obtain ⟨-, before, after, hrows, hbefore⟩ := List.find?_eq_some_iff_append.1 hrow
  have hc : (source.clause limits row).outcome.1 = .ok c := by
    cases hresult : (source.clause limits row).outcome.1 with
    | ok b =>
      rw [hresult] at hread
      exact congrArg Except.ok (Option.some.inj hread)
    | error e =>
      rw [hresult] at hread
      cases hread
  obtain ⟨-, hid, hspan⟩ := Source.clause_eq_ok_iff.1 hc
  refine ⟨earlier, source, later, before, row, after, c, violation, rfl, hrows, fun s hs b hb => ?_,
    fun r hr b hb => ?_, hc, hdefect, ?_, fun hlast => ?_⟩
  · have hnone := List.find?_eq_none.1 (hearlier s hs) b hb
    exact Clause.isDefective_eq_false_iff.1 (by simpa using hnone)
  · have hnone := hbefore r hr
    rw [hb] at hnone
    exact Clause.isDefective_eq_false_iff.1 (by simpa [Except.toOption] using hnone)
  · rw [hid, hspan]
  · have hmem : row ∈ source.clauseRows := by simp [hrows]
    rw [hid, hspan, hlast]
    exact (Row.liesIn_of_mem (Source.mem_clauseRows.1 hmem).1).bytes_wholeSpan

/-- Three sources under two ids. The first text is replaced by a longer one, which has the first clause
with a defect, between lines that end in different ways. -/
def replaced : List Source :=
  [⟨"rules", "p"⟩, ⟨"rules", "# é\r\n(or p q)\r(not é q)\n"⟩, ⟨"more", "(if p)"⟩]

set_option maxRecDepth 3000 in
theorem validate_names_row_replaced :
    ∃ d, (({} : KnowledgeBase).run (replaced.map .add)).validate = .error (.located d) ∧
      d.span = ⟨15, 25, 3, 1⟩ ∧ d.span.stop ≤ d.source.text.utf8ByteSize ∧
      ∃ row : Row, d.span.bytes d.source.text = (String.ofList row.text).toByteArray ∧
        row.wholeSpan = d.span := by
  have hfirst : (replaced.flatMap (·.rowClauses {})).find? Clause.isDefective =
      some ⟨.node .not [.atom "é", .atom "q"], "rules", ⟨15, 25, 3, 1⟩⟩ := by
    cbv
  have hdefect : (Formula.node .not [.atom "é", .atom "q"]).defect? = some (.operandCount .not 2) := by
    cbv
  have hhistory : ({} : KnowledgeBase).history (replaced.map .add) = replaced.map addedEvent := by cbv
  have hadded : ∀ event ∈ ({} : KnowledgeBase).history (replaced.map .add),
      ∃ count, event.2 = .added count := by
    rw [hhistory]
    simp [addedEvent]
  have hrejected := (validate_run_adds_eq_error_iff hadded).2 ⟨_, _, hfirst, hdefect, rfl⟩
  obtain ⟨earlier, source, later, before, row, after, c, violation, hsources, hrows, -, -, -, -, hd,
    hshown⟩ := validate_names_row hadded hrejected
  have hspan : row.wholeSpan = ⟨15, 25, 3, 1⟩ := (congrArg Diagnosis.span hd).symm
  -- only the second source is long enough for the span
  have hlong : 25 ≤ source.text.utf8ByteSize := by
    have hmem : row ∈ source.clauseRows := by simp [hrows]
    have hlies := (Row.liesIn_of_mem (Source.mem_clauseRows.1 hmem).1).bytes_wholeSpan
    rw [hspan] at hlies
    exact hlies.2.1
  have hlast : lastText replaced source.id = source.text := by
    have hmem : source ∈ replaced := by simp [hsources]
    simp only [replaced, List.mem_cons, List.not_mem_nil, or_false] at hmem
    obtain rfl | rfl | rfl := hmem
    · exact absurd hlong (by decide)
    · rfl
    · exact absurd hlong (by decide)
  obtain ⟨-, hstop, hbytes⟩ := hshown hlast
  exact ⟨_, hrejected, rfl, hstop, row, hbytes, hspan⟩

/-- Two texts under one id, of which the first has a clause with a defect. -/
def renamed : List Source :=
  [⟨"rules", "(not a b)"⟩, ⟨"rules", "p"⟩]

/-- Where another text was added under the same id since, the span of a rejected clause may be out of
range: the clause of the first text is named in the second one. -/
theorem not_forall_validate_shows_row :
    ¬ ∀ (limits : Limits) (sources : List Source) (d : Diagnosis),
      (∀ event ∈ ({ limits } : KnowledgeBase).history (sources.map .add),
        ∃ count, event.2 = .added count) →
      (({ limits } : KnowledgeBase).run (sources.map .add)).validate = .error (.located d) →
      d.span.stop ≤ d.source.text.utf8ByteSize ∧
        ∃ source ∈ sources, ∃ row ∈ source.clauseRows, row.wholeSpan = d.span ∧
          d.span.bytes d.source.text = (String.ofList row.text).toByteArray := by
  intro h
  have hfirst : (renamed.flatMap (·.rowClauses {})).find? Clause.isDefective =
      some ⟨.node .not [.atom "a", .atom "b"], "rules", ⟨0, 9, 1, 1⟩⟩ := by
    cbv
  have hdefect : (Formula.node .not [.atom "a", .atom "b"]).defect? = some (.operandCount .not 2) := by
    cbv
  have hhistory : ({} : KnowledgeBase).history (renamed.map .add) = renamed.map addedEvent := by cbv
  have hadded : ∀ event ∈ ({} : KnowledgeBase).history (renamed.map .add),
      ∃ count, event.2 = .added count := by
    rw [hhistory]
    simp [addedEvent]
  have hrejected := (validate_run_adds_eq_error_iff hadded).2 ⟨_, _, hfirst, hdefect, rfl⟩
  have hstop : 9 ≤ (lastText renamed "rules").utf8ByteSize := (h {} renamed _ hadded hrejected).1
  exact absurd hstop (by decide)

end KnowledgeBase

end Consequence
