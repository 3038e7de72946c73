import Mathlib
import Consequence.Proofs.Classification

/-!
# Conjunctions and their conjuncts

A clause that is a conjunction may be replaced by its conjuncts, in the place where it stands. A check
then looks at other rows: seeds are read off whole clauses, so a conjunct that is a literal now pins its
symbol, which was free as long as it stood inside the conjunction, and it may turn a pinned value
around.

* `ValidBase.Splits`: the two bases; `ValidBase.Splits.atoms` and `ValidBase.Splits.holds` say that they
  have the same symbols, in the same order, and the same models.
* `ValidBase.Splits.mem_seed`: the names that are pinned are those from before and those of the
  conjuncts that are literals, so `ValidBase.Splits.freeSymbols` and `ValidBase.Splits.assignments` say
  how much smaller the second check is.
* `ValidBase.tabulate_split`: the outcome of both checks.
-/

set_option autoImplicit false

namespace Consequence

/-- The names of the literals among some formulas. -/
def literalNames (fs : List Formula) : List String :=
  fs.filterMap fun f => f.literal?.map (·.1)

theorem mem_literalNames {fs : List Formula} {name : String} :
    name ∈ literalNames fs ↔ ∃ f ∈ fs, ∃ value, f.literal? = some (name, value) := by
  simp [literalNames]

theorem Seed.mem_ofFormulas_iff_mem_literalNames {fs : List Formula} {name : String} :
    name ∈ Seed.ofFormulas fs ↔ name ∈ literalNames fs := by
  rw [Seed.mem_ofFormulas_iff, mem_literalNames]

namespace Formula

theorem truth_conjunction (v : Valuation) (fs : List Formula) :
    (node .and fs).truth v = fs.all (·.truth v) := by
  simp [truth_node, Connective.reading]

/-- A conjunction is no literal, whatever its conjuncts are. -/
theorem literal?_conjunction (fs : List Formula) : (node .and fs).literal? = none := rfl

end Formula

namespace ValidBase

/-- Where the first base has a conjunction, the second one has its conjuncts. -/
def Splits (base : ValidBase) (fs : List Formula) (split : ValidBase) : Prop :=
  ∃ before after, base.formulas = before ++ .node .and fs :: after ∧
    split.formulas = before ++ fs ++ after

namespace Splits

variable {base split : ValidBase} {fs : List Formula} (h : base.Splits fs split)
include h

/-! ## The same symbols and the same models -/

theorem atoms : split.formulas.flatMap Formula.atoms = base.formulas.flatMap Formula.atoms := by
  obtain ⟨before, after, hbase, hsplit⟩ := h
  simp [hbase, hsplit, Formula.atoms_node]

theorem symbols : split.symbols = base.symbols := by
  rw [ValidBase.symbols, ValidBase.symbols, Symbols.foldl_extend, Symbols.foldl_extend, h.atoms]

theorem symbolsWith (q : Statement) : split.symbolsWith q = base.symbolsWith q := by
  rw [ValidBase.symbolsWith, ValidBase.symbolsWith, h.symbols]

theorem mentioned (q : Statement) : split.mentioned q = base.mentioned q := by
  rw [ValidBase.mentioned, ValidBase.mentioned, List.flatMap_append, List.flatMap_append, h.atoms]

theorem holds : split.holds = base.holds := by
  obtain ⟨before, after, hbase, hsplit⟩ := h
  funext v
  simp [holds_eq_all, hbase, hsplit, Formula.truth_conjunction]

/-! ## A larger seed -/

theorem mem_seed (name : String) :
    name ∈ split.seed ↔ name ∈ base.seed ∨ name ∈ literalNames fs := by
  obtain ⟨before, after, hbase, hsplit⟩ := h
  simp only [seed, Seed.mem_ofFormulas_iff_mem_literalNames, hbase, hsplit, literalNames,
    List.filterMap_append, List.filterMap_cons, Formula.literal?_conjunction, Option.map_none,
    List.mem_append]
  tauto

theorem freeSymbols (q : Statement) :
    split.freeSymbols q = (base.freeSymbols q).filter fun name => !(literalNames fs).contains name := by
  unfold ValidBase.freeSymbols
  rw [h.symbolsWith, List.filter_filter]
  refine List.filter_congr fun name _ => ?_
  have hseed := h.mem_seed name
  rw [Bool.eq_iff_iff]
  simp only [Bool.not_eq_true', Bool.and_eq_true, ← Bool.not_eq_true, Std.TreeMap.contains_iff_mem,
    List.contains_iff_mem]
  tauto

/-- Each free symbol that is pinned now halves the rows. -/
theorem assignments {q : Statement} (hfree : (base.freeSymbols q).length < 64) :
    (base.tabulate q).tally.assignments.toNat =
      2 ^ (base.freeSymbols q).countP (literalNames fs).contains *
        (split.tabulate q).tally.assignments.toNat := by
  have hlength : (base.freeSymbols q).length =
      (base.freeSymbols q).countP (literalNames fs).contains + (split.freeSymbols q).length := by
    rw [h.freeSymbols, List.countP_eq_length_filter]
    exact List.length_eq_length_filter_add _
  rw [(toNat_tally hfree).1, (toNat_tally (by omega)).1, hlength, Nat.pow_add]

/-! ## The same counts -/

theorem counts (q : Statement) :
    (split.tabulate q).tally.models = (base.tabulate q).tally.models ∧
      (split.tabulate q).tally.holding = (base.tabulate q).tally.holding ∧
      (split.tabulate q).tally.failing = (base.tabulate q).tally.failing := by
  simp only [tally_eq_counts, h.mentioned, h.holds, and_self]

theorem verdict (q : Statement) : (split.tabulate q).verdict = (base.tabulate q).verdict := by
  obtain ⟨hmodels, hholding, hfailing⟩ := h.counts q
  rw [verdict_tabulate, verdict_tabulate]
  simp only [Verdict.ofTally, hmodels, hholding, hfailing]

end Splits

/-- **Splitting a conjunction is safe**: where the conjuncts of a clause stand in its place, the base is
accepted, its symbols come in the same order, and a check gives the same models, as many in which the
statement holds and fails, and the same verdict. The conjuncts that are literals are pinned too; each of
their names that was free halves the assignments. -/
theorem tabulate_split {base : ValidBase} {before after conjuncts : List Clause} {whole : Clause}
    (hclauses : base.clauses = before ++ whole :: after)
    (hwhole : whole.formula = .node .and (conjuncts.map (·.formula))) (q : Statement) :
    ∃ split,
      KnowledgeBase.validate
          { base.toKnowledgeBase with clauses := before ++ conjuncts ++ after } = .ok split ∧
      split.symbols = base.symbols ∧ split.symbolsWith q = base.symbolsWith q ∧
      let names := literalNames (conjuncts.map (·.formula))
      let unsplit := base.tabulate q
      let checked := split.tabulate q
      checked.tally.models = unsplit.tally.models ∧
        checked.tally.holding = unsplit.tally.holding ∧
        checked.tally.failing = unsplit.tally.failing ∧ checked.verdict = unsplit.verdict ∧
        (∀ name, name ∈ checked.seed ↔ name ∈ unsplit.seed ∨ name ∈ names) ∧
        checked.freeSymbols = unsplit.freeSymbols.filter (fun name => !names.contains name) ∧
        (unsplit.freeSymbols.length < 64 → unsplit.tally.assignments.toNat =
          2 ^ unsplit.freeSymbols.countP names.contains * checked.tally.assignments.toNat) := by
  have hformulas : ∀ clause ∈ before ++ conjuncts ++ after, clause.formula.WellFormed := by
    have hbase := base.wellFormed
    simp only [hclauses, List.forall_mem_append, List.forall_mem_cons, hwhole,
      Formula.wellFormed_node_iff, List.forall_mem_map] at hbase ⊢
    obtain ⟨hbefore, ⟨-, hconjuncts⟩, hafter⟩ := hbase
    exact ⟨⟨hbefore, hconjuncts⟩, hafter⟩
  let split : ValidBase :=
    ⟨{ base.toKnowledgeBase with clauses := before ++ conjuncts ++ after }, hformulas⟩
  have h : base.Splits (conjuncts.map (·.formula)) split :=
    ⟨before.map (·.formula), after.map (·.formula), by simp [formulas, hclauses, hwhole],
      by simp [formulas, split]⟩
  obtain ⟨hmodels, hholding, hfailing⟩ := h.counts q
  refine ⟨split, KnowledgeBase.validate_eq_ok_iff.2 rfl, h.symbols, h.symbolsWith q, hmodels, hholding,
    hfailing, h.verdict q, h.mem_seed, ?_, ?_⟩
  · rw [freeSymbols_tabulate, freeSymbols_tabulate]
    exact h.freeSymbols q
  · rw [freeSymbols_tabulate]
    exact h.assignments

/-- `(if p q)`, then the conjunction of the literal `p` and of `(or r q)`, then `(not s)`. -/
def conjoined : ValidBase where
  clauses := [.inMemory (.node .implies [.atom "p", .atom "q"]),
    .inMemory (.node .and [.atom "p", .node .or [.atom "r", .atom "q"]]),
    .inMemory (.node .not [.atom "s"])]
  wellFormed := by
    simp [Clause.inMemory, Formula.wellFormed_node_iff, Formula.wellFormed_atom_iff]
    decide

theorem tabulate_split_conjoined :
    (conjoined.tabulate askingQ).tally = ⟨8, 2, 2, 0⟩ ∧
      (conjoined.tabulate askingQ).freeSymbols = ["p", "q", "r"] ∧
      ∃ split,
        KnowledgeBase.validate { conjoined.toKnowledgeBase with
          clauses := [.inMemory (.node .implies [.atom "p", .atom "q"]), .inMemory (.atom "p"),
            .inMemory (.node .or [.atom "r", .atom "q"]), .inMemory (.node .not [.atom "s"])] } =
          .ok split ∧
        split.symbols.names = #["p", "q", "r", "s"] ∧ "p" ∈ split.seed ∧
        (split.tabulate askingQ).tally.assignments.toNat = 4 ∧
        (split.tabulate askingQ).tally.models = 2 ∧ (split.tabulate askingQ).tally.holding = 2 ∧
        (split.tabulate askingQ).tally.failing = 0 ∧
        (split.tabulate askingQ).freeSymbols = ["q", "r"] ∧
        (split.tabulate askingQ).verdict = .follows := by
  have htally : (conjoined.tabulate askingQ).tally = ⟨8, 2, 2, 0⟩ := by cbv
  have hfree : (conjoined.tabulate askingQ).freeSymbols = ["p", "q", "r"] := by cbv
  have hverdict : (conjoined.tabulate askingQ).verdict = .follows := by cbv
  obtain ⟨split, hvalid, hsymbols, -, hmodels, hholding, hfailing, hverdict', hseed, hfree', hrows⟩ :=
    @tabulate_split conjoined [.inMemory (.node .implies [.atom "p", .atom "q"])]
      [.inMemory (.node .not [.atom "s"])]
      [.inMemory (.atom "p"), .inMemory (.node .or [.atom "r", .atom "q"])] _ rfl rfl askingQ
  rw [htally] at hmodels hholding hfailing hrows
  rw [hfree] at hfree' hrows
  have hpinned : "p" ∈ split.seed := (hseed "p").2 (.inr (List.mem_singleton_self "p"))
  -- one of the three free symbols is the literal among the conjuncts
  have hhalved : 8 = 2 * (split.tabulate askingQ).tally.assignments.toNat := hrows (by decide)
  refine ⟨htally, hfree, split, hvalid, ?_, hpinned, by omega, hmodels, hholding, hfailing, hfree', ?_⟩
  · rw [hsymbols]
    cbv
  · rw [hverdict', hverdict]

end ValidBase

end Consequence
