import Mathlib
import Consequence.Proofs.Deduction
import Consequence.Proofs.Sharpening
import Consequence.Proofs.Splitting

/-!
# A base and its own conjunction

The conjunction of all clauses holds in the models of the base and nowhere else, so a check of it finds no
model in which it fails. As a clause list the base pins the symbols of its literals; the conjunction is
one formula and pins none, but it is the base that seeds the check.

* `KnowledgeBase.truth_conjunction`: the conjunction holds where the base does.
* `KnowledgeBase.wellFormed_conjunction_iff`: it is well formed just if all clauses are and there is one,
  since a conjunction takes one operand or more.
* `KnowledgeBase.checkStatement_conjunction`: what a check of it gives.
* `KnowledgeBase.not_forall_conjunction_accepted`: the base without clauses.
-/

set_option autoImplicit false

namespace Consequence

/-! ## Formulas as statements -/

namespace Statement

variable {f : Formula}

/-- The well-formed formulas are those that are accepted as statements. -/
theorem exists_ofFormula_eq_ok_iff : (∃ q, ofFormula f = .ok q) ↔ f.WellFormed := by
  constructor
  · rintro ⟨q, hq⟩
    have hclause : q.clause = .inMemory f := ofClause_eq_ok_iff.1 hq
    have hwellFormed := q.wellFormed
    rwa [hclause] at hwellFormed
  · exact fun h => ⟨⟨.inMemory f, h⟩, ofClause_eq_ok_iff.2 rfl⟩

theorem formula_of_ofFormula {q : Statement} (h : ofFormula f = .ok q) : q.formula = f := by
  have hclause : q.clause = .inMemory f := ofClause_eq_ok_iff.1 h
  rw [formula, hclause]
  rfl

/-- A formula that is not accepted is rejected for its defect. -/
theorem ofFormula_eq_error {violation : Violation} (h : f.defect? = some violation) :
    ofFormula f = .error (.located ⟨.rejectedClause violation f, {}, ⟨"<memory>", ""⟩⟩) := by
  refine ofClause_eq_error_iff.2 ?_
  rw [Clause.rejection?, Clause.inMemory, h, Option.map_some]

end Statement

namespace KnowledgeBase

variable {kb : KnowledgeBase} {base : ValidBase} {q : Statement}

/-! ## The conjunction -/

theorem truth_conjunction (kb : KnowledgeBase) (v : Valuation) :
    kb.conjunction.truth v = kb.holds v := by
  rw [conjunction, Formula.truth_conjunction, List.all_map]
  rfl

theorem wellFormed_conjunction_iff :
    kb.conjunction.WellFormed ↔ kb.clauses ≠ [] ∧ ∀ c ∈ kb.clauses, c.formula.WellFormed := by
  rw [conjunction, Formula.wellFormed_node_iff, List.length_map, List.forall_mem_map]
  refine and_congr_left fun _ => ?_
  rw [← List.length_pos_iff]
  exact decide_eq_true_iff

theorem conjunction_of_nil (h : kb.clauses = []) : kb.conjunction = .node .and [] := by
  rw [conjunction, h, List.map_nil]

/-! ## Its check -/

/-- No model of the base is counted as one in which the conjunction fails. -/
theorem failing_conjunction (hq : q.formula = base.conjunction) :
    (base.tabulate q).tally.failing = 0 := by
  have hnone : countAssignments (base.mentioned q) (fun v => base.holds v && !q.formula.truth v) = 0 := by
    rw [hq]
    simp [countAssignments, truth_conjunction]
  rw [ValidBase.tally_eq_counts]
  simp only [hnone]
  rfl

/-- **A base entails its own conjunction**: the conjunction of the clauses of an accepted base is accepted
as a statement just if there is a clause; the one of no clauses is rejected for its operand count. Checked
against the base, without a limit on free symbols, the conjunction follows, or the base is inconsistent,
and with fewer than 64 free symbols it follows just if the base has a model. -/
theorem checkStatement_conjunction (hvalid : kb.validate = .ok base)
    (hlimit : kb.limits.freeSymbols = none) :
    ((∃ q, Statement.ofFormula kb.conjunction = .ok q) ↔ kb.clauses ≠ []) ∧
      (kb.clauses = [] → Statement.ofFormula kb.conjunction = .error (.located
        ⟨.rejectedClause (.operandCount .and 0) (.node .and []), {}, ⟨"<memory>", ""⟩⟩)) ∧
      ∀ q, Statement.ofFormula kb.conjunction = .ok q →
        ∃ e, kb.checkStatement q = .ok e ∧ (e.verdict = .follows ∨ e.verdict = .inconsistent) ∧
          ((base.freeSymbols q).length < 64 →
            (e.verdict = .follows ↔ ∃ v, kb.holds v = true) ∧
              (e.verdict = .inconsistent ↔ ¬∃ v, kb.holds v = true)) := by
  have hcheck (q : Statement) : kb.checkStatement q = base.judge q := by
    rw [checkStatement, hvalid]
    rfl
  obtain rfl := validate_eq_ok_iff.1 hvalid
  refine ⟨?accepted, ?empty, fun q hq => ⟨base.tabulate q, ?run, ?settled, fun hfree => ⟨?_, ?_⟩⟩⟩
  case accepted =>
    rw [Statement.exists_ofFormula_eq_ok_iff, wellFormed_conjunction_iff]
    exact and_iff_left base.wellFormed
  case empty =>
    intro hnil
    rw [conjunction_of_nil hnil]
    exact Statement.ofFormula_eq_error (by simp [Formula.defect?, Connective.arity, Arity.accepts])
  case run => rw [hcheck, ValidBase.judge_unlimited hlimit]
  case settled =>
    exact ValidBase.verdict_follows_or_inconsistent_iff.2
      (failing_conjunction (Statement.formula_of_ofFormula hq))
  · rw [ValidBase.verdict_eq_follows_iff hfree, Statement.formula_of_ofFormula hq]
    exact and_iff_left fun v hv => (base.truth_conjunction v).trans hv
  · exact ValidBase.verdict_eq_inconsistent_iff hfree

/-- The conjunction of `(or p q)` and `(not p)` follows from these clauses. -/
theorem checkStatement_conjunction_disjunctive :
    ValidBase.disjunctive.validate = .ok ValidBase.disjunctive ∧
      ∃ q, Statement.ofFormula ValidBase.disjunctive.conjunction = .ok q ∧
        (ValidBase.disjunctive.freeSymbols q).length < 64 ∧ (∃ v, ValidBase.disjunctive.holds v = true) ∧
        ∃ e, ValidBase.disjunctive.checkStatement q = .ok e ∧ e.verdict = .follows := by
  have hvalid : ValidBase.disjunctive.validate = .ok ValidBase.disjunctive := validate_eq_ok_iff.2 rfl
  have hformed : ValidBase.disjunctive.conjunction.WellFormed :=
    wellFormed_conjunction_iff.2 ⟨List.cons_ne_nil _ _, ValidBase.disjunctive.wellFormed⟩
  have hq : Statement.ofFormula ValidBase.disjunctive.conjunction = .ok ⟨.inMemory _, hformed⟩ :=
    Statement.ofClause_eq_ok_iff.2 rfl
  have hfree : (ValidBase.disjunctive.freeSymbols ⟨.inMemory _, hformed⟩).length < 64 := by cbv
  have hmodel : ValidBase.disjunctive.holds (· == "q") = true := by cbv
  obtain ⟨e, he, -, hverdict⟩ := (checkStatement_conjunction hvalid rfl).2.2 _ hq
  exact ⟨hvalid, _, hq, hfree, ⟨_, hmodel⟩, e, he, (hverdict hfree).1.2 ⟨_, hmodel⟩⟩

/-- The base without clauses is accepted, and its conjunction is not. -/
theorem not_forall_conjunction_accepted :
    ¬ ∀ (kb : KnowledgeBase) (base : ValidBase), kb.validate = .ok base →
      kb.limits.freeSymbols = none →
        ∃ q, Statement.ofFormula kb.conjunction = .ok q ∧
          ((base.freeSymbols q).length < 64 →
            ∃ e, kb.checkStatement q = .ok e ∧ (e.verdict = .follows ∨ e.verdict = .inconsistent)) := by
  intro h
  have hformed : ∀ c ∈ ({} : KnowledgeBase).clauses, c.formula.WellFormed := by simp
  obtain ⟨q, hq, -⟩ := h {} ⟨{}, hformed⟩ (validate_eq_ok_iff.2 rfl) rfl
  have hconjunction := Statement.exists_ofFormula_eq_ok_iff.1 ⟨q, hq⟩
  exact (wellFormed_conjunction_iff.1 hconjunction).1 rfl

end KnowledgeBase

end Consequence
