import Mathlib
import Consequence.Proofs.Classification

/-!
# Order and repetition of clauses

Bases with the same formulas are checked alike, in whatever order the formulas stand and however
often each of them does. The order gives the symbols their slots, so it changes which rows a check
looks at, and of two literals over one symbol the later one is pinned. None of this reaches the
outcome:

* `ValidBase.holds_congr`, `ValidBase.mentioned_congr`: models and symbols are those of the set of
  formulas, so `ValidBase.tally_congr` compares the counters.
* `ValidBase.freeSymbols_perm`: which symbols are free depends on which formulas are literals.
* `ValidBase.tabulate_rearranged`: the outcome of a check.
-/

set_option autoImplicit false

namespace Consequence.ValidBase

section
variable {base other : ValidBase} (hsame : ∀ f, f ∈ other.formulas ↔ f ∈ base.formulas)
include hsame

theorem holds_congr (v : Valuation) : other.holds v = base.holds v := by
  rw [holds_eq_all, holds_eq_all, Bool.eq_iff_iff, List.all_eq_true, List.all_eq_true]
  exact forall_congr' fun f => imp_congr_left (hsame f)

theorem mentioned_congr (statement : Statement) :
    other.mentioned statement = base.mentioned statement := by
  ext name
  simp only [mem_mentioned, hsame]

theorem mem_seed_congr (name : String) : name ∈ other.seed ↔ name ∈ base.seed := by
  rw [seed, seed, Seed.mem_ofFormulas_iff, Seed.mem_ofFormulas_iff]
  simp only [hsame]

theorem freeSymbols_perm (statement : Statement) :
    (other.freeSymbols statement).Perm (base.freeSymbols statement) := by
  rw [List.perm_ext_iff_of_nodup (other.nodup_freeSymbols statement)
    (base.nodup_freeSymbols statement)]
  intro name
  rw [mem_freeSymbols, mem_freeSymbols, mentioned_congr hsame, mem_seed_congr hsame]

theorem tally_congr (statement : Statement) :
    (other.tabulate statement).tally = (base.tabulate statement).tally := by
  have hholds : other.holds = base.holds := funext (holds_congr hsame)
  rw [tally_eq_counts, tally_eq_counts, (freeSymbols_perm hsame statement).length_eq,
    mentioned_congr hsame, hholds]

end

/-- **Neither the order of the clauses nor their repetition matters**: a base whose clauses have the
formulas of an accepted base is accepted too, and a check gives the same verdict, the same counters
and the same free symbols. -/
theorem tabulate_rearranged {base : ValidBase} {kb : KnowledgeBase}
    (hsame : ∀ f, f ∈ kb.clauses.map (·.formula) ↔ f ∈ base.clauses.map (·.formula))
    (statement : Statement) :
    ∃ other, kb.validate = .ok other ∧
      (other.tabulate statement).verdict = (base.tabulate statement).verdict ∧
      (other.tabulate statement).tally = (base.tabulate statement).tally ∧
      (other.tabulate statement).freeSymbols.Perm (base.tabulate statement).freeSymbols := by
  have hformulas : ∀ clause ∈ kb.clauses, clause.formula.WellFormed := by
    intro clause hclause
    obtain ⟨c, hc, hformula⟩ :=
      List.mem_map.1 ((hsame clause.formula).1 (List.mem_map_of_mem hclause))
    rw [← hformula]
    exact base.wellFormed c hc
  let other : ValidBase := { kb with wellFormed := hformulas }
  have hother : ∀ f, f ∈ other.formulas ↔ f ∈ base.formulas := hsame
  have htally := tally_congr hother statement
  refine ⟨other, KnowledgeBase.validate_eq_ok_iff.2 rfl, ?_, htally, ?_⟩
  · rw [verdict_tabulate, verdict_tabulate, htally]
  · rw [freeSymbols_tabulate, freeSymbols_tabulate]
    exact freeSymbols_perm hother statement

/-- `(not p)` in front of `p` and once more `p`: the other literal is pinned than in `opposed`. -/
def opposedTurned : KnowledgeBase where
  clauses := [.inMemory (.node .not [.atom "p"]), .inMemory (.atom "p"), .inMemory (.atom "p")]

theorem tabulate_rearranged_opposed :
    (∀ f, f ∈ opposedTurned.clauses.map (·.formula) ↔ f ∈ opposed.clauses.map (·.formula)) ∧
      opposed.seed["p"]? = some false ∧
      ∃ other, opposedTurned.validate = .ok other ∧ other.seed["p"]? = some true ∧
        (other.tabulate askingQ).verdict = .inconsistent ∧
        (other.tabulate askingQ).tally = ⟨2, 0, 0, 0⟩ ∧
        (other.tabulate askingQ).freeSymbols.Perm ["q"] := by
  have hsame : ∀ f,
      f ∈ opposedTurned.clauses.map (·.formula) ↔ f ∈ opposed.clauses.map (·.formula) := by
    intro f
    simp [opposedTurned, opposed, Clause.inMemory, or_comm]
  obtain ⟨other, hvalid, hverdict, htally, hfree⟩ := tabulate_rearranged hsame askingQ
  have hseed : other.seed = Seed.ofFormulas (opposedTurned.clauses.map (·.formula)) := by
    rw [← KnowledgeBase.validate_eq_ok_iff.1 hvalid]
    rfl
  refine ⟨hsame, by decide, other, hvalid, ?_, ?_, ?_, ?_⟩
  · rw [hseed]
    decide
  · rw [hverdict]
    cbv
  · rw [htally]
    cbv
  · have hfreeSymbols : (opposed.tabulate askingQ).freeSymbols = ["q"] := by cbv
    rwa [← hfreeSymbols]

end Consequence.ValidBase
