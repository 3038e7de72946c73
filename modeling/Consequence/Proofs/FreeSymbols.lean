import Mathlib
import Consequence.Proofs.Classification

/-!
# The guard on free symbols

The limit on free symbols is compared with a list that is made of names, before a check. The check counts
through slots, which compilation could add to. Both come to the same symbols: those of the clauses and
then of the statement, in order of first appearance, that are not pinned.

* `Symbols.compileAll_of_mem`: compilation adds no slot to a table that has all symbols.
* `ValidBase.classify_eq_tabulate`: so it does not matter that a check goes on from the table that
  compilation leaves.
* `ValidBase.freeSymbols_eq`: the symbols that are free.
* `ValidBase.judge_of_le`, `ValidBase.judge_of_lt`: a check within the limit and one beyond it.
* `ValidBase.judge_guards_classify`: what the limit refuses, and the exponent of what it lets through.
-/

set_option autoImplicit false

namespace Consequence

/-! ## Compilation -/

namespace Symbols

variable {symbols : Symbols} {f : Formula} {fs : List Formula}

/-- Compiles formulas one after the other, each from the table that the one before it left. -/
def compileAll (symbols : Symbols) : List Formula → List Circuit × Symbols
  | [] => ([], symbols)
  | f :: fs =>
    let first := symbols.compile f
    let others := first.2.compileAll fs
    (first.1 :: others.1, others.2)

theorem compile_of_mem (h : ∀ name ∈ f.atoms, name ∈ symbols.names) :
    symbols.compile f = (.ofFormula symbols f, symbols) := by
  rw [compile, extend, foldl_insert_of_mem h]

theorem compileAll_of_mem (h : ∀ f ∈ fs, ∀ name ∈ f.atoms, name ∈ symbols.names) :
    symbols.compileAll fs = (fs.map (.ofFormula symbols), symbols) := by
  induction fs with
  | nil => rfl
  | cons f fs ih =>
    rw [List.forall_mem_cons] at h
    simp only [compileAll, compile_of_mem h.1, ih h.2, List.map_cons]

end Symbols

namespace ValidBase

variable (base : ValidBase) (statement : Statement)

/-- A check that compiles the clauses and then the statement, starting from the table of both, and counts
through the slots of the table that this leaves. -/
def classify : Entailment :=
  let premises := (base.symbolsWith statement).compileAll base.formulas
  let goal := premises.2.compile statement.formula
  let odometer := Odometer.start goal.2 base.seed
  let tally := odometer.fold
    (fun t row => t.add ((Circuit.conjunction premises.1).eval row) (goal.1.eval row)) {}
  { verdict := .ofTally tally
    tally
    freeSymbols := odometer.free.map goal.2.nameAt
    seed := base.seed }

/-- Compilation finds all symbols in the table. -/
theorem classify_eq_tabulate : base.classify statement = base.tabulate statement := by
  have hnames (name : String) :
      ((∃ f ∈ base.formulas, name ∈ f.atoms) ∨ name ∈ statement.formula.atoms) →
        name ∈ (base.symbolsWith statement).names := by
    rw [← mem_mentioned_iff_mem_symbols, mem_mentioned]
    exact id
  have hpremises : (base.symbolsWith statement).compileAll base.formulas =
      (base.formulas.map (.ofFormula (base.symbolsWith statement)), base.symbolsWith statement) :=
    Symbols.compileAll_of_mem fun f hf name hname => hnames name (.inl ⟨f, hf, hname⟩)
  have hgoal : (base.symbolsWith statement).compile statement.formula =
      (.ofFormula (base.symbolsWith statement) statement.formula, base.symbolsWith statement) :=
    Symbols.compile_of_mem fun name hname => hnames name (.inr hname)
  simp only [classify, hpremises, hgoal, tabulate]

/-! ## The free symbols -/

theorem freeSymbols_eq :
    base.freeSymbols statement =
      ((base.formulas ++ [statement.formula]).flatMap Formula.atoms).eraseDups.filter
        fun name => !base.seed.contains name := by
  rw [freeSymbols, symbolsWith_eq_foldl, Symbols.toList_foldl_insert_empty]

/-! ## The guard -/

section
variable {base : ValidBase} {statement : Statement}

theorem judge_of_le
    (hwithin : ∀ limit, base.limits.freeSymbols = some limit →
      (base.freeSymbols statement).length ≤ limit) :
    base.judge statement = .ok (base.tabulate statement) := by
  have hfilter : base.limits.freeSymbols.filter (· < (base.freeSymbols statement).length) = none := by
    rw [Option.filter_eq_none_iff]
    intro limit hset
    simpa using hwithin limit hset
  simp only [judge, hfilter]

theorem judge_of_lt {limit : Nat} (hset : base.limits.freeSymbols = some limit)
    (hless : limit < (base.freeSymbols statement).length) :
    base.judge statement = .error (.excess (.freeSymbols limit (base.freeSymbols statement).length)) := by
  have hfilter : base.limits.freeSymbols.filter (· < (base.freeSymbols statement).length) = some limit := by
    rw [hset]
    exact Option.filter_some_pos (decide_eq_true hless)
  simp only [judge, hfilter]

variable (base statement) in
/-- The limit is kept or exceeded. -/
theorem le_or_lt_freeSymbols :
    (∀ limit, base.limits.freeSymbols = some limit → (base.freeSymbols statement).length ≤ limit) ∨
      ∃ limit, base.limits.freeSymbols = some limit ∧ limit < (base.freeSymbols statement).length := by
  rw [or_iff_not_imp_left]
  intro hbeyond
  push Not at hbeyond
  exact hbeyond

theorem judge_eq_error_iff {e : Error} :
    base.judge statement = .error e ↔
      ∃ limit, base.limits.freeSymbols = some limit ∧ limit < (base.freeSymbols statement).length ∧
        e = .excess (.freeSymbols limit (base.freeSymbols statement).length) := by
  constructor
  · intro h
    rcases base.le_or_lt_freeSymbols statement with hwithin | ⟨limit, hset, hless⟩
    · rw [judge_of_le hwithin] at h
      cases h
    · rw [judge_of_lt hset hless] at h
      exact ⟨limit, hset, hless, (Except.error.inj h).symm⟩
  · rintro ⟨limit, hset, hless, rfl⟩
    exact judge_of_lt hset hless

theorem judge_eq_ok_iff {entailment : Entailment} :
    base.judge statement = .ok entailment ↔
      (∀ limit, base.limits.freeSymbols = some limit → (base.freeSymbols statement).length ≤ limit) ∧
        base.tabulate statement = entailment := by
  constructor
  · intro h
    rcases base.le_or_lt_freeSymbols statement with hwithin | ⟨limit, hset, hless⟩
    · rw [judge_of_le hwithin] at h
      exact ⟨hwithin, Except.ok.inj h⟩
    · rw [judge_of_lt hset hless] at h
      cases h
  · rintro ⟨hwithin, rfl⟩
    exact judge_of_le hwithin

theorem models_le_assignments (hfree : (base.freeSymbols statement).length < 64) :
    (base.tabulate statement).tally.models.toNat ≤ (base.tabulate statement).tally.assignments.toNat := by
  obtain ⟨hassignments, hmodels, -⟩ := toNat_tally hfree
  rw [hassignments, hmodels]
  exact countAssignments_le_rows (base.dependsOn_holds statement) fun _ hv => hv

end

/-- **The limit on free symbols guards the enumeration that would run**: whatever the limits are, the
symbols that are counted before a check are those of the clauses and then of the statement, in order of
first appearance, that are not pinned. A check that goes on from the table that compilation leaves has
the same free symbols. It is refused just if there is a limit and the symbols are more, and then the
error has their number. Otherwise it is run, and with fewer than 64 free symbols it goes through `2 ^ n`
assignments for `n` of them and counts each model once more, by the value of the statement. -/
theorem judge_guards_classify (base : ValidBase) (statement : Statement) (limits : Limits) :
    let guarded : ValidBase := { base with limits }
    let free := guarded.freeSymbols statement
    free = ((base.formulas ++ [statement.formula]).flatMap Formula.atoms).eraseDups.filter
        (fun name => !base.seed.contains name) ∧
      (guarded.classify statement).freeSymbols = free ∧
      (∀ e, guarded.judge statement = .error e ↔
        ∃ limit, limits.freeSymbols = some limit ∧ limit < free.length ∧
          e = .excess (.freeSymbols limit free.length)) ∧
      (∀ entailment, guarded.judge statement = .ok entailment ↔
        (∀ limit, limits.freeSymbols = some limit → free.length ≤ limit) ∧
          guarded.classify statement = entailment) ∧
      ∀ entailment, guarded.judge statement = .ok entailment → entailment.freeSymbols.length < 64 →
        entailment.tally.assignments.toNat = 2 ^ free.length ∧
          entailment.tally.holding.toNat + entailment.tally.failing.toNat =
            entailment.tally.models.toNat ∧
          entailment.tally.models.toNat ≤ entailment.tally.assignments.toNat := by
  intro guarded free
  rw [classify_eq_tabulate]
  refine ⟨guarded.freeSymbols_eq statement, guarded.freeSymbols_tabulate statement,
    fun _ => judge_eq_error_iff, fun _ => judge_eq_ok_iff, fun entailment hjudge hfree => ?_⟩
  obtain ⟨-, rfl⟩ := judge_eq_ok_iff.1 hjudge
  rw [freeSymbols_tabulate] at hfree
  exact ⟨(toNat_tally hfree).1, (models_eq_holding_add_failing hfree).symm, models_le_assignments hfree⟩

/-- Of `p` and `q` the base of `(or p q)` and `(not p)` pins `p`, so that a limit of no free symbol refuses
the check of `q` and a limit of one lets it run over two assignments. -/
theorem judge_guards_classify_disjunctive :
    ({ disjunctive with limits := { freeSymbols := some 0 } } : ValidBase).judge askingQ =
        .error (.excess (.freeSymbols 0 1)) ∧
      ∃ entailment,
        ({ disjunctive with limits := { freeSymbols := some 1 } } : ValidBase).judge askingQ =
          .ok entailment ∧ entailment.freeSymbols = ["q"] ∧ entailment.tally.assignments.toNat = 2 ∧
        entailment.tally.models.toNat ≤ 2 := by
  have hfree (limits : Limits) :
      ({ disjunctive with limits } : ValidBase).freeSymbols askingQ = ["q"] :=
    show disjunctive.freeSymbols askingQ = ["q"] by cbv
  obtain ⟨-, -, hrefused, -⟩ := judge_guards_classify disjunctive askingQ { freeSymbols := some 0 }
  obtain ⟨-, hnames, -, hrun, hcounts⟩ :=
    judge_guards_classify disjunctive askingQ { freeSymbols := some 1 }
  have hjudge := (hrun _).2 ⟨fun limit hset => ?_, rfl⟩
  · obtain ⟨hassignments, -, hmodels⟩ := hcounts _ hjudge (by rw [hnames, hfree]; decide)
    rw [hfree, List.length_singleton, pow_one] at hassignments
    rw [hassignments] at hmodels
    refine ⟨(hrefused _).2 ⟨0, rfl, ?_, ?_⟩, _, hjudge, by rw [hnames, hfree], hassignments, hmodels⟩
    · rw [hfree]
      decide
    · rw [hfree]
      rfl
  · cases hset
    rw [hfree]
    decide

end ValidBase

end Consequence
