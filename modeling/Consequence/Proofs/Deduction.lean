import Mathlib
import Consequence.Proofs.Classification

/-!
# Clauses as antecedents

A clause of the base can be moved into the statement. A check of `q` against a base with one more
clause `p` looks at other rows than a check of `(if p q)` against the base without it: `p` may be a
literal and pin its symbol, or turn a pinned value around, or bring new symbols. But the models that
are counted are the same.

* `ValidBase.holds_assume`, `ValidBase.mentioned_assume`: models and symbols of the larger base.
* `ValidBase.holding_assume`, `ValidBase.failing_assume`: the counters of both checks.
* `ValidBase.verdict_follows_or_inconsistent_iff`: the verdict tells whether any model is left in
  which the statement fails, also when a counter has wrapped around.
* `ValidBase.deduction`: all of it for the clause that is added and the statements that are built.
-/

set_option autoImplicit false

namespace Consequence

/-! ## Formulas with two operands -/

namespace Formula

theorem truth_and (v : Valuation) (f g : Formula) :
    (node .and [f, g]).truth v = (f.truth v && g.truth v) := by
  simp [truth_node, Connective.reading]

theorem truth_implies (v : Valuation) (f g : Formula) :
    (node .implies [f, g]).truth v = (!f.truth v || g.truth v) := by
  simp [truth_node, Connective.reading, Connective.chain]

theorem mem_atoms_pair {op : Connective} {f g : Formula} {name : String} :
    name ∈ (node op [f, g]).atoms ↔ name ∈ f.atoms ∨ name ∈ g.atoms := by
  simp [atoms]

theorem WellFormed.pair {op : Connective} (hop : op.arity.accepts 2 = true) {f g : Formula}
    (hf : f.WellFormed) (hg : g.WellFormed) : (Formula.node op [f, g]).WellFormed := by
  refine .node hop fun h hh => ?_
  rcases List.mem_pair.1 hh with rfl | rfl
  · exact hf
  · exact hg

end Formula

/-! ## Verdicts -/

/-- The two verdicts under which every model satisfies the statement. -/
theorem Verdict.ofTally_follows_or_inconsistent_iff {tally : Tally} :
    ofTally tally = follows ∨ ofTally tally = inconsistent ↔ tally.holding = tally.models := by
  have hholding : (tally.holding == tally.models) = true ↔ tally.holding = tally.models := beq_iff_eq
  unfold ofTally
  rw [← hholding]
  cases tally.holding == tally.models <;> cases tally.failing == tally.models <;> simp

namespace ValidBase

variable {base : ValidBase} {p q : Statement}

/-- Each model is counted on one side, also when the counters wrap around. -/
theorem models_eq_add (base : ValidBase) (statement : Statement) :
    (base.tabulate statement).tally.models =
      (base.tabulate statement).tally.holding + (base.tabulate statement).tally.failing := by
  rw [tally_eq_counts, ← UInt64.ofNat_add, ← countAssignments_split]

theorem verdict_follows_or_inconsistent_iff {statement : Statement} :
    (base.tabulate statement).verdict = .follows ∨
        (base.tabulate statement).verdict = .inconsistent ↔
      (base.tabulate statement).tally.failing = 0 := by
  rw [verdict_tabulate, Verdict.ofTally_follows_or_inconsistent_iff, models_eq_add]
  exact UInt64.left_eq_add

/-! ## One more clause -/

/-- The base with one more clause. -/
def assume (base : ValidBase) (p : Statement) : ValidBase where
  toKnowledgeBase := { base.toKnowledgeBase with clauses := base.clauses ++ [p.clause] }
  wellFormed := by
    intro clause hclause
    rcases List.mem_append.1 hclause with hclause | hclause
    · exact base.wellFormed clause hclause
    · rw [List.mem_singleton.1 hclause]
      exact p.wellFormed

theorem formulas_assume : (base.assume p).formulas = base.formulas ++ [p.formula] :=
  List.map_append

theorem holds_assume (v : Valuation) :
    (base.assume p).holds v = (base.holds v && p.formula.truth v) := by
  rw [holds_eq_all, holds_eq_all, formulas_assume, List.all_append]
  simp

/-- A statement over `p` and `q` mentions what the base mentions with `p` in it and `q` asked. -/
theorem mentioned_assume {op : Connective} {compound : Statement}
    (hcompound : compound.formula = .node op [p.formula, q.formula]) :
    (base.assume p).mentioned q = base.mentioned compound := by
  ext name
  rw [mem_mentioned, mem_mentioned, formulas_assume, hcompound, Formula.mem_atoms_pair, ← or_assoc]
  simp only [List.mem_append, List.mem_singleton, or_and_right, exists_or, exists_eq_left]

theorem holding_assume {both : Statement}
    (hboth : both.formula = .node .and [p.formula, q.formula]) :
    ((base.assume p).tabulate q).tally.holding = (base.tabulate both).tally.holding := by
  rw [tally_eq_counts, tally_eq_counts, mentioned_assume hboth]
  simp only [holds_assume, hboth, Formula.truth_and, Bool.and_assoc]

theorem failing_assume {conditional : Statement}
    (hconditional : conditional.formula = .node .implies [p.formula, q.formula]) :
    ((base.assume p).tabulate q).tally.failing = (base.tabulate conditional).tally.failing := by
  rw [tally_eq_counts, tally_eq_counts, mentioned_assume hconditional]
  simp only [holds_assume, hconditional, Formula.truth_implies, Bool.and_assoc, Bool.not_or,
    Bool.not_not]

/-- **The deduction law**: a base with one more clause `p` is accepted, and it has as many models in
which `q` holds as the base has in which `(and p q)` holds, and as many in which `q` fails as the
base has in which `(if p q)` fails. So with `p` every model satisfies `q` just if without it every
model satisfies `(if p q)`. -/
theorem deduction (base : ValidBase) (p q : Statement) :
    ∃ larger both conditional,
      KnowledgeBase.validate { base.toKnowledgeBase with clauses := base.clauses ++ [p.clause] } =
        .ok larger ∧
      Statement.ofFormula (.node .and [p.formula, q.formula]) = .ok both ∧
      Statement.ofFormula (.node .implies [p.formula, q.formula]) = .ok conditional ∧
      (larger.tabulate q).tally.holding = (base.tabulate both).tally.holding ∧
      (larger.tabulate q).tally.failing = (base.tabulate conditional).tally.failing ∧
      ((larger.tabulate q).verdict = .follows ∨ (larger.tabulate q).verdict = .inconsistent ↔
        (base.tabulate conditional).verdict = .follows ∨
          (base.tabulate conditional).verdict = .inconsistent) := by
  have hpair (op : Connective) (hop : op.arity.accepts 2 = true) :
      (Formula.node op [p.formula, q.formula]).WellFormed := .pair hop p.wellFormed q.wellFormed
  let both : Statement := ⟨.inMemory _, hpair .and rfl⟩
  let conditional : Statement := ⟨.inMemory _, hpair .implies rfl⟩
  have hfailing : ((base.assume p).tabulate q).tally.failing =
      (base.tabulate conditional).tally.failing := failing_assume rfl
  refine ⟨base.assume p, both, conditional, KnowledgeBase.validate_eq_ok_iff.2 rfl,
    Statement.ofClause_eq_ok_iff.2 rfl, Statement.ofClause_eq_ok_iff.2 rfl, holding_assume rfl,
    hfailing, ?_⟩
  rw [verdict_follows_or_inconsistent_iff, verdict_follows_or_inconsistent_iff, hfailing]

/-- As a clause the literal `q` is pinned, and one row is looked at; in a statement it is free. -/
example :
    ((disjunctive.assume askingQ).tabulate askingQ).tally = ⟨1, 1, 1, 0⟩ ∧
      (disjunctive.tabulate ⟨.inMemory (.node .and [askingQ.formula, askingQ.formula]),
        .pair rfl askingQ.wellFormed askingQ.wellFormed⟩).tally = ⟨2, 1, 1, 0⟩ := by
  constructor <;> cbv

end ValidBase

end Consequence
