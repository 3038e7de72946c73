import Mathlib
import Consequence.Proofs.Counting

/-!
# What the verdicts mean

The four verdicts are the four classical relations between a base and a statement, over all
valuations of all names.

* `ValidBase.verdict_eq_inconsistent_iff` and its like: one verdict each.
* `ValidBase.verdict_classical`: all of them, for a base that validation has accepted.
* `ValidBase.tally_unpinned`: the counters behind the verdict are those of a count in which nothing
  is pinned.
-/

set_option autoImplicit false

namespace Consequence

namespace Verdict

/-- If each model counts on one of two sides, the verdict says which sides have any. -/
theorem ofTally_iff {tally : Tally}
    (h : tally.models.toNat = tally.holding.toNat + tally.failing.toNat) :
    (ofTally tally = inconsistent ↔ ¬0 < tally.models.toNat) ∧
      (ofTally tally = follows ↔ 0 < tally.models.toNat ∧ ¬0 < tally.failing.toNat) ∧
      (ofTally tally = refuted ↔ 0 < tally.models.toNat ∧ ¬0 < tally.holding.toNat) ∧
      (ofTally tally = undecided ↔ 0 < tally.holding.toNat ∧ 0 < tally.failing.toNat) := by
  have hholding : (tally.holding == tally.models) = decide (tally.failing.toNat = 0) := by
    rw [Bool.eq_iff_iff, beq_iff_eq, ← UInt64.toNat_inj, decide_eq_true_iff]
    omega
  have hfailing : (tally.failing == tally.models) = decide (tally.holding.toNat = 0) := by
    rw [Bool.eq_iff_iff, beq_iff_eq, ← UInt64.toNat_inj, decide_eq_true_iff]
    omega
  unfold ofTally
  rw [hholding, hfailing]
  by_cases ht : tally.holding.toNat = 0 <;> by_cases hf : tally.failing.toNat = 0 <;>
    simp [ht, hf, h, Nat.pos_iff_ne_zero]

end Verdict

namespace ValidBase

variable {base : ValidBase} {statement : Statement}

/-! ## Which counters are positive -/

theorem models_pos_iff (hfree : (base.freeSymbols statement).length < 64) :
    0 < (base.tabulate statement).tally.models.toNat ↔ ∃ v, base.holds v = true := by
  rw [(toNat_tally hfree).2.1, countAssignments_pos_iff (base.dependsOn_holds statement)]

theorem holding_pos_iff (hfree : (base.freeSymbols statement).length < 64) :
    0 < (base.tabulate statement).tally.holding.toNat ↔
      ∃ v, base.holds v = true ∧ statement.formula.truth v = true := by
  rw [(toNat_tally hfree).2.2.1, countAssignments_pos_iff
    ((base.dependsOn_holds statement).and (base.dependsOn_truth statement))]
  simp only [Bool.and_eq_true]

theorem failing_pos_iff (hfree : (base.freeSymbols statement).length < 64) :
    0 < (base.tabulate statement).tally.failing.toNat ↔
      ∃ v, base.holds v = true ∧ statement.formula.truth v = false := by
  rw [(toNat_tally hfree).2.2.2, countAssignments_pos_iff
    ((base.dependsOn_holds statement).and (base.dependsOn_truth statement).not)]
  simp only [Bool.and_eq_true, Bool.not_eq_true']

/-- Each model is counted as one in which the statement holds or as one in which it fails. -/
theorem models_eq_holding_add_failing (hfree : (base.freeSymbols statement).length < 64) :
    (base.tabulate statement).tally.models.toNat =
      (base.tabulate statement).tally.holding.toNat +
        (base.tabulate statement).tally.failing.toNat := by
  obtain ⟨-, hmodels, hholding, hfailing⟩ := toNat_tally hfree
  rw [hmodels, hholding, hfailing]
  exact countAssignments_split _ _ _

/-! ## The verdicts -/

theorem verdict_tabulate :
    (base.tabulate statement).verdict = .ofTally (base.tabulate statement).tally := rfl

theorem verdict_eq_inconsistent_iff (hfree : (base.freeSymbols statement).length < 64) :
    (base.tabulate statement).verdict = .inconsistent ↔ ¬∃ v, base.holds v = true := by
  rw [verdict_tabulate, (Verdict.ofTally_iff (models_eq_holding_add_failing hfree)).1,
    models_pos_iff hfree]

theorem verdict_eq_follows_iff (hfree : (base.freeSymbols statement).length < 64) :
    (base.tabulate statement).verdict = .follows ↔
      (∃ v, base.holds v = true) ∧
        ∀ v, base.holds v = true → statement.formula.truth v = true := by
  rw [verdict_tabulate, (Verdict.ofTally_iff (models_eq_holding_add_failing hfree)).2.1,
    models_pos_iff hfree, failing_pos_iff hfree]
  simp only [not_exists, not_and, Bool.not_eq_false]

theorem verdict_eq_refuted_iff (hfree : (base.freeSymbols statement).length < 64) :
    (base.tabulate statement).verdict = .refuted ↔
      (∃ v, base.holds v = true) ∧
        ∀ v, base.holds v = true → statement.formula.truth v = false := by
  rw [verdict_tabulate, (Verdict.ofTally_iff (models_eq_holding_add_failing hfree)).2.2.1,
    models_pos_iff hfree, holding_pos_iff hfree]
  simp only [not_exists, not_and, Bool.not_eq_true]

theorem verdict_eq_undecided_iff (hfree : (base.freeSymbols statement).length < 64) :
    (base.tabulate statement).verdict = .undecided ↔
      (∃ v, base.holds v = true ∧ statement.formula.truth v = true) ∧
        ∃ v, base.holds v = true ∧ statement.formula.truth v = false := by
  rw [verdict_tabulate, (Verdict.ofTally_iff (models_eq_holding_add_failing hfree)).2.2.2,
    holding_pos_iff hfree, failing_pos_iff hfree]

/-- **The verdict is the classical one**: it tells whether the clauses of an accepted base have a
model, and whether the statement holds in every model or fails in every model. -/
theorem verdict_classical {kb : KnowledgeBase} (hvalid : kb.validate = .ok base)
    (statement : Statement) (hfree : (base.freeSymbols statement).length < 64) :
    let verdict := (base.tabulate statement).verdict
    (verdict = .inconsistent ↔ ¬∃ v, kb.holds v = true) ∧
      (verdict = .follows ↔ (∃ v, kb.holds v = true) ∧
        ∀ v, kb.holds v = true → statement.formula.truth v = true) ∧
      (verdict = .refuted ↔ (∃ v, kb.holds v = true) ∧
        ∀ v, kb.holds v = true → statement.formula.truth v = false) ∧
      (verdict = .undecided ↔
        (∃ v, kb.holds v = true ∧ statement.formula.truth v = true) ∧
          ∃ v, kb.holds v = true ∧ statement.formula.truth v = false) := by
  obtain rfl := KnowledgeBase.validate_eq_ok_iff.1 hvalid
  exact ⟨verdict_eq_inconsistent_iff hfree, verdict_eq_follows_iff hfree,
    verdict_eq_refuted_iff hfree, verdict_eq_undecided_iff hfree⟩

/-- The base of `(or p q)` and `(not p)`, which pins `p`. -/
def disjunctive : ValidBase where
  clauses := [.inMemory (.node .or [.atom "p", .atom "q"]), .inMemory (.node .not [.atom "p"])]
  wellFormed := by
    simp [Clause.inMemory, Formula.wellFormed_node_iff, Formula.wellFormed_atom_iff]
    decide

/-- The base of `p` and `(not p)`, of which only the later one is pinned. -/
def opposed : ValidBase where
  clauses := [.inMemory (.atom "p"), .inMemory (.node .not [.atom "p"])]
  wellFormed := by
    simp [Clause.inMemory, Formula.wellFormed_node_iff, Formula.wellFormed_atom_iff]
    decide

/-- The statement `q`. -/
def askingQ : Statement where
  clause := .inMemory (.atom "q")
  wellFormed := by
    simp [Clause.inMemory, Formula.wellFormed_atom_iff]
    decide

/-- The base of `(or p q)` and `(not p)` has models, and `q` holds in all of them. -/
theorem verdict_classical_disjunctive :
    disjunctive.validate = .ok disjunctive ∧ (disjunctive.freeSymbols askingQ).length < 64 ∧
      (∃ v, disjunctive.holds v = true) ∧
        ∀ v, disjunctive.holds v = true → askingQ.formula.truth v = true := by
  have hvalid : disjunctive.validate = .ok disjunctive := KnowledgeBase.validate_eq_ok_iff.2 rfl
  have hfree : (disjunctive.freeSymbols askingQ).length < 64 := by cbv
  have hverdict : (disjunctive.tabulate askingQ).verdict = .follows := by cbv
  exact ⟨hvalid, hfree, (verdict_classical hvalid askingQ hfree).2.1.1 hverdict⟩

/-- **Pinning loses nothing**: the counters are the numbers of assignments to all symbols of the
base and the statement, `2 ^ n` for `n` symbols, in which every clause holds, in which the statement
holds too, and in which it fails. -/
theorem tally_unpinned (base : ValidBase) (statement : Statement)
    (hsymbols : (base.mentioned statement).card < 64) :
    let names := base.mentioned statement
    let tally := (base.tabulate statement).tally
    Fintype.card (Assignment names) = 2 ^ names.card ∧
      tally.models.toNat = countAssignments names base.holds ∧
      tally.holding.toNat =
        countAssignments names (fun v => base.holds v && statement.formula.truth v) ∧
      tally.failing.toNat =
        countAssignments names (fun v => base.holds v && !statement.formula.truth v) := by
  have hfree := (base.length_freeSymbols_le statement).trans_lt hsymbols
  exact ⟨card_assignment _, (toNat_tally hfree).2⟩

/-- Of the four assignments to `p` and `q` one satisfies `(or p q)` and `(not p)`, and none
satisfies `p` and `(not p)`, though the rows of either check all have the pinned value of `p`. -/
theorem tally_unpinned_disjunctive_opposed :
    (disjunctive.mentioned askingQ).card < 64 ∧
      countAssignments (disjunctive.mentioned askingQ) disjunctive.holds = 1 ∧
      (opposed.mentioned askingQ).card < 64 ∧
      countAssignments (opposed.mentioned askingQ) opposed.holds = 0 := by
  have hsymbols₁ : (disjunctive.mentioned askingQ).card < 64 := by cbv
  have hsymbols₂ : (opposed.mentioned askingQ).card < 64 := by cbv
  have htally₁ : (disjunctive.tabulate askingQ).tally = ⟨2, 1, 1, 0⟩ := by cbv
  have htally₂ : (opposed.tabulate askingQ).tally = ⟨2, 0, 0, 0⟩ := by cbv
  have hcount₁ := (tally_unpinned disjunctive askingQ hsymbols₁).2.1
  have hcount₂ := (tally_unpinned opposed askingQ hsymbols₂).2.1
  rw [htally₁] at hcount₁
  rw [htally₂] at hcount₂
  exact ⟨hsymbols₁, hcount₁.symm, hsymbols₂, hcount₂.symm⟩

end ValidBase

end Consequence
