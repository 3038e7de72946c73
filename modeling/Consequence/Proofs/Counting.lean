import Mathlib
import Consequence.Entailment
import Consequence.Proofs.Circuit
import Consequence.Proofs.Odometer
import Consequence.Proofs.Seed

/-!
# Counting models

A check looks at one row for each number below `2 ^ n`, where `n` is the number of free symbols.
What it counts is the same as a count over all assignments to the symbols, with nothing pinned:

* `Odometer.exists_rowValuation`, `Odometer.rowValuation_inj`: the rows spell every valuation that
  agrees with the seed, up to symbols that are not in the table, and each just once.
* `ValidBase.agrees_of_holds`: every model agrees with the seed, so no model is left out.
* `ValidBase.tally_eq_counts`: the counters are numbers of assignments, kept in 64 bits.
* `ValidBase.toNat_tally`: so they are these numbers, as long as fewer than 64 symbols are free.
-/

set_option autoImplicit false

namespace Consequence

/-! ## Assignments -/

/-- Truth values for finitely many names. -/
abbrev Assignment (names : Finset String) := names → Bool

/-- The valuation that agrees with an assignment and makes all other names false. -/
def Assignment.valuation {names : Finset String} (a : Assignment names) : Valuation :=
  fun name => if h : name ∈ names then a ⟨name, h⟩ else false

/-- How many assignments to the names satisfy a condition. -/
def countAssignments (names : Finset String) (p : Valuation → Bool) : Nat :=
  (Finset.univ.filter fun a : Assignment names => p a.valuation = true).card

theorem Assignment.valuation_of_mem {names : Finset String} (a : Assignment names) {name : String}
    (h : name ∈ names) : a.valuation name = a ⟨name, h⟩ := by
  simp [valuation, h]

theorem card_assignment (names : Finset String) :
    Fintype.card (Assignment names) = 2 ^ names.card := by
  simp

/-- The condition looks at nothing but the given names. -/
def DependsOn (names : Finset String) (p : Valuation → Bool) : Prop :=
  ∀ v w : Valuation, (∀ name ∈ names, v name = w name) → p v = p w

theorem DependsOn.and {names : Finset String} {p q : Valuation → Bool} (hp : DependsOn names p)
    (hq : DependsOn names q) : DependsOn names fun v => p v && q v :=
  fun v w h => congrArg₂ (· && ·) (hp v w h) (hq v w h)

theorem DependsOn.not {names : Finset String} {p : Valuation → Bool} (hp : DependsOn names p) :
    DependsOn names fun v => !p v :=
  fun v w h => congrArg (!·) (hp v w h)

theorem DependsOn.mono {names larger : Finset String} {p : Valuation → Bool} (hp : DependsOn names p)
    (hsub : names ⊆ larger) : DependsOn larger p :=
  fun v w h => hp v w fun name hname => h name (hsub hname)

/-- Those that satisfy a condition are those that satisfy another one as well and those that do
not. -/
theorem countAssignments_split (names : Finset String) (p q : Valuation → Bool) :
    countAssignments names p = countAssignments names (fun v => p v && q v) +
      countAssignments names (fun v => p v && !q v) := by
  unfold countAssignments
  rw [← Finset.card_filter_add_card_filter_not fun a : Assignment names => q a.valuation = true,
    Finset.filter_filter, Finset.filter_filter]
  simp only [Bool.and_eq_true, Bool.not_eq_true, Bool.not_eq_true']

theorem countAssignments_pos_iff {names : Finset String} {p : Valuation → Bool}
    (hp : DependsOn names p) : 0 < countAssignments names p ↔ ∃ v, p v = true := by
  rw [countAssignments, Finset.card_pos]
  constructor
  · intro h
    obtain ⟨a, ha⟩ := h
    exact ⟨a.valuation, (Finset.mem_filter.1 ha).2⟩
  · intro h
    obtain ⟨v, hv⟩ := h
    let a : Assignment names := fun name => v name
    refine ⟨a, Finset.mem_filter.2 ⟨Finset.mem_univ a, ?_⟩⟩
    rw [← hv]
    exact hp _ _ fun name hname => a.valuation_of_mem hname

/-! ## Rows -/

namespace Odometer

variable {symbols : Symbols} {seed : Seed}

/-- The valuation of the row for the number `k`. -/
def rowValuation (symbols : Symbols) (seed : Seed) (k : Nat) : Valuation :=
  symbols.valuation (rowAt symbols seed k)

theorem rowValuation_eq (k : Nat) (name : String) :
    rowValuation symbols seed k name =
      (rowAt symbols seed k).getD (symbols.slotOf name) false := rfl

/-- Every row agrees with the seed on the symbols of the table. -/
theorem rowValuation_pinned {name : String} {value : Bool} (hname : name ∈ symbols.names)
    (hpin : seed[name]? = some value) (k : Nat) : rowValuation symbols seed k name = value := by
  have hcontains : seed.contains (symbols.nameAt (symbols.slotOf name)) = true := by
    rw [Symbols.nameAt_slotOf hname, Std.TreeMap.contains_eq_isSome_getElem?, hpin]
    rfl
  rw [rowValuation_eq, getD_rowAt_of_pinned symbols seed (Symbols.slotOf_lt hname) hcontains,
    Symbols.nameAt_slotOf hname, Std.TreeMap.getD_eq_getD_getElem?, hpin, Option.getD_some]

/-- The `i`-th free symbol has the digit `i` of the number of the row. -/
theorem rowValuation_free {i : Nat} (hi : i < (start symbols seed).free.length) (k : Nat) :
    rowValuation symbols seed k (symbols.nameAt (start symbols seed).free[i]) = k.testBit i := by
  have hmem := (mem_free_start symbols seed).1 (List.getElem_mem hi)
  rw [rowValuation_eq, Symbols.slotOf_nameAt hmem.1, getD_rowAt_free symbols seed hi]

/-- The rows spell every valuation that agrees with the seed. -/
theorem exists_rowValuation {v : Valuation} (hv : seed.Agrees v) :
    ∃ k < 2 ^ (start symbols seed).free.length,
      ∀ name ∈ symbols.names, rowValuation symbols seed k name = v name := by
  let digits (i : Fin (start symbols seed).free.length) : Bool :=
    v (symbols.nameAt (start symbols seed).free[i])
  refine ⟨Nat.ofBits digits, Nat.ofBits_lt_two_pow digits, fun name hname => ?_⟩
  rcases hpin : seed[name]? with _ | value
  · have hfree : symbols.slotOf name ∈ (start symbols seed).free := by
      rw [mem_free_start, Symbols.nameAt_slotOf hname, Std.TreeMap.contains_eq_isSome_getElem?,
        hpin]
      exact ⟨Symbols.slotOf_lt hname, rfl⟩
    obtain ⟨i, hi, hslot⟩ := List.getElem_of_mem hfree
    have hname' : symbols.nameAt (start symbols seed).free[i] = name := by
      rw [hslot, Symbols.nameAt_slotOf hname]
    rw [← hname', rowValuation_free hi, Nat.testBit_ofBits_lt digits i hi]
    rfl
  · rw [rowValuation_pinned hname hpin, hv name value hpin]

theorem rowValuation_inj {k l : Nat} (hk : k < 2 ^ (start symbols seed).free.length)
    (hl : l < 2 ^ (start symbols seed).free.length)
    (h : ∀ name ∈ symbols.names,
      rowValuation symbols seed k name = rowValuation symbols seed l name) :
    k = l := by
  refine Nat.eq_of_testBit_eq fun i => ?_
  by_cases hi : i < (start symbols seed).free.length
  · have hmem := (mem_free_start symbols seed).1 (List.getElem_mem hi)
    rw [← rowValuation_free hi, ← rowValuation_free hi]
    exact h _ (Symbols.nameAt_mem hmem.1)
  · have hpow : 2 ^ (start symbols seed).free.length ≤ 2 ^ i :=
      Nat.pow_le_pow_right Nat.two_pos (Nat.le_of_not_lt hi)
    rw [Nat.testBit_lt_two_pow (hk.trans_le hpow), Nat.testBit_lt_two_pow (hl.trans_le hpow)]

/-- As many rows as assignments satisfy a condition that looks at nothing but the symbols of the
table and that no valuation satisfies without agreeing with the seed. -/
theorem countP_rowValuation {names : Finset String}
    (hnames : ∀ name, name ∈ names ↔ name ∈ symbols.names) {p : Valuation → Bool}
    (hp : DependsOn names p) (hseed : ∀ v, p v = true → seed.Agrees v) :
    (List.range (2 ^ (start symbols seed).free.length)).countP
      (fun k => p (rowValuation symbols seed k)) = countAssignments names p := by
  have hcount := Nat.count_eq_card_filter_range (fun k => p (rowValuation symbols seed k) = true)
    (2 ^ (start symbols seed).free.length)
  simp only [Nat.count, Bool.decide_eq_true] at hcount
  rw [hcount]
  -- a row is sent to the assignment that it spells
  refine Finset.card_bij (fun k _ name => rowValuation symbols seed k name) (fun k hk => ?_)
    (fun k hk l hl he => ?_) (fun a ha => ?_)
  · rw [Finset.mem_filter] at hk
    refine Finset.mem_filter.2 ⟨Finset.mem_univ _, ?_⟩
    rw [← hk.2]
    exact hp _ _ fun name hname => Assignment.valuation_of_mem _ hname
  · rw [Finset.mem_filter, Finset.mem_range] at hk hl
    exact rowValuation_inj hk.1 hl.1 fun name hname =>
      congrFun he ⟨name, (hnames name).2 hname⟩
  · have ha' := (Finset.mem_filter.1 ha).2
    obtain ⟨k, hk, hrow⟩ : ∃ k < 2 ^ (start symbols seed).free.length,
        ∀ name ∈ symbols.names, rowValuation symbols seed k name = a.valuation name :=
      exists_rowValuation (hseed _ ha')
    refine ⟨k, Finset.mem_filter.2 ⟨Finset.mem_range.2 hk, ?_⟩, ?_⟩
    · rw [← ha']
      exact hp _ _ fun name hname => hrow name ((hnames name).1 hname)
    · funext name
      rw [hrow name ((hnames name).1 name.2), Assignment.valuation_of_mem a name.2]

end Odometer

/-! ## Counters -/

/-- Counting goes up by the number of members with the respective values. -/
theorem Tally.foldl_add {α : Type} (model holds : α → Bool) (xs : List α) (tally : Tally) :
    xs.foldl (fun t x => t.add (model x) (holds x)) tally = {
      assignments := tally.assignments + .ofNat xs.length
      models := tally.models + .ofNat (xs.countP model)
      holding := tally.holding + .ofNat (xs.countP fun x => model x && holds x)
      failing := tally.failing + .ofNat (xs.countP fun x => model x && !holds x) } := by
  induction xs generalizing tally with
  | nil => simp
  | cons x xs ih =>
    rw [List.foldl_cons, ih]
    cases hm : model x <;> cases hh : holds x <;>
      simp [Tally.add, hm, hh, UInt64.ofNat_add, UInt64.add_assoc, UInt64.add_comm]

/-! ## A check -/

namespace KnowledgeBase

/-- Every clause of the base holds. -/
def holds (kb : KnowledgeBase) (v : Valuation) : Bool :=
  kb.clauses.all (·.formula.truth v)

/-- A base in which every clause is well formed is accepted as it is, and no other base is. -/
theorem validate_eq_ok_iff {kb : KnowledgeBase} {base : ValidBase} :
    kb.validate = .ok base ↔ base.toKnowledgeBase = kb := by
  unfold validate
  split
  · next e he =>
    constructor
    · intro h
      cases h
    · rintro rfl
      rw [base.rejection?_eq_none_iff.2 base.wellFormed] at he
      cases he
  · constructor
    · intro h
      cases h
      rfl
    · rintro rfl
      rfl

end KnowledgeBase

/-- A well-formed clause is accepted as it is, and no other clause is. -/
theorem Statement.ofClause_eq_ok_iff {clause : Clause} {text : String} {statement : Statement} :
    Statement.ofClause clause text = .ok statement ↔ statement.clause = clause := by
  unfold ofClause
  split
  · next e he =>
    constructor
    · intro h
      cases h
    · rintro rfl
      rw [(statement.clause.rejection?_eq_none_iff text).2 statement.wellFormed] at he
      cases he
  · constructor
    · intro h
      cases h
      rfl
    · rintro rfl
      rfl

theorem Statement.ofClause_eq_error_iff {clause : Clause} {text : String} {e : Error} :
    Statement.ofClause clause text = .error e ↔ clause.rejection? text = some e := by
  unfold ofClause
  split
  · next h => simp [h]
  · next h => simp [h]

namespace ValidBase

variable (base : ValidBase) (statement : Statement)

theorem holds_eq_all (v : Valuation) : base.holds v = base.formulas.all (·.truth v) := by
  rw [formulas, List.all_map]
  rfl

/-- The symbols of all clauses. -/
def ownNames : Finset String :=
  (base.formulas.flatMap Formula.atoms).toFinset

theorem mem_ownNames {name : String} : name ∈ base.ownNames ↔ ∃ f ∈ base.formulas, name ∈ f.atoms := by
  simp [ownNames]

theorem dependsOn_holds_own : DependsOn base.ownNames base.holds := by
  intro v w h
  rw [holds_eq_all, holds_eq_all, Bool.eq_iff_iff, List.all_eq_true, List.all_eq_true]
  refine forall₂_congr fun f hf => ?_
  rw [Formula.truth_congr fun name hname => h name (base.mem_ownNames.2 ⟨f, hf, hname⟩)]

/-- The symbols of all clauses and of the statement. -/
def mentioned : Finset String :=
  ((base.formulas ++ [statement.formula]).flatMap Formula.atoms).toFinset

theorem mem_mentioned {name : String} :
    name ∈ base.mentioned statement ↔
      (∃ f ∈ base.formulas, name ∈ f.atoms) ∨ name ∈ statement.formula.atoms := by
  simp [mentioned]

/-- The table of a check holds the symbols that are mentioned. -/
theorem mem_mentioned_iff_mem_symbols (name : String) :
    name ∈ base.mentioned statement ↔ name ∈ (base.symbolsWith statement).names := by
  rw [mem_mentioned, symbolsWith, Symbols.mem_extend, symbols, Symbols.mem_foldl_extend]
  simp

theorem agrees_of_holds {v : Valuation} (h : base.holds v = true) : base.seed.Agrees v :=
  Seed.agrees_of_forall_truth (List.all_eq_true.1 (base.holds_eq_all v ▸ h))

theorem ownNames_subset_mentioned : base.ownNames ⊆ base.mentioned statement := by
  intro name hname
  rw [mem_mentioned]
  exact .inl (base.mem_ownNames.1 hname)

theorem dependsOn_holds : DependsOn (base.mentioned statement) base.holds :=
  base.dependsOn_holds_own.mono (base.ownNames_subset_mentioned statement)

theorem dependsOn_truth : DependsOn (base.mentioned statement) statement.formula.truth :=
  fun _ _ h => Formula.truth_congr fun name hname =>
    h name ((base.mem_mentioned statement).2 (.inr hname))

/-! ### The free symbols -/

/-- The table of a check holds the symbols of the clauses and then those of the statement. -/
theorem symbolsWith_eq_foldl :
    base.symbolsWith statement =
      ((base.formulas ++ [statement.formula]).flatMap Formula.atoms).foldl Symbols.insert .empty := by
  rw [← Symbols.foldl_extend, List.foldl_append]
  rfl

theorem freeSymbols_eq_map :
    base.freeSymbols statement =
      (Odometer.start (base.symbolsWith statement) base.seed).free.map
        (base.symbolsWith statement).nameAt := by
  rw [freeSymbols, Symbols.toList_names, List.filter_map]
  rfl

theorem length_freeSymbols :
    (base.freeSymbols statement).length =
      (Odometer.start (base.symbolsWith statement) base.seed).free.length := by
  rw [freeSymbols_eq_map, List.length_map]

theorem length_freeSymbols_le :
    (base.freeSymbols statement).length ≤ (base.mentioned statement).card := by
  have hcard : base.mentioned statement = (base.symbolsWith statement).names.toList.toFinset := by
    ext name
    rw [mem_mentioned_iff_mem_symbols, List.mem_toFinset, Array.mem_toList_iff]
  rw [hcard, List.toFinset_card_of_nodup (base.symbolsWith statement).distinct]
  exact List.length_filter_le _ _

/-- A check names the symbols that the limit on free symbols looks at. -/
theorem freeSymbols_tabulate :
    (base.tabulate statement).freeSymbols = base.freeSymbols statement :=
  (base.freeSymbols_eq_map statement).symm

theorem nodup_freeSymbols : (base.freeSymbols statement).Nodup :=
  (base.symbolsWith statement).distinct.filter _

theorem mem_freeSymbols {name : String} :
    name ∈ base.freeSymbols statement ↔
      name ∈ base.mentioned statement ∧ name ∉ base.seed := by
  rw [freeSymbols, List.mem_filter, Array.mem_toList_iff, mem_mentioned_iff_mem_symbols,
    Bool.not_eq_true', ← Bool.not_eq_true, Std.TreeMap.contains_iff_mem]

/-! ### The counters -/

/-- The counters of a check, counting rows. -/
theorem tally_tabulate :
    (base.tabulate statement).tally =
      let row := Odometer.rowValuation (base.symbolsWith statement) base.seed
      let numbers := List.range (2 ^ (base.freeSymbols statement).length)
      { assignments := .ofNat (2 ^ (base.freeSymbols statement).length)
        models := .ofNat (numbers.countP fun k => base.holds (row k))
        holding := .ofNat
          (numbers.countP fun k => base.holds (row k) && statement.formula.truth (row k))
        failing := .ofNat
          (numbers.countP fun k => base.holds (row k) && !statement.formula.truth (row k)) } := by
  have hfold := Odometer.fold_start (base.symbolsWith statement) base.seed
    (fun t row => t.add (base.formulas.all (·.truth ((base.symbolsWith statement).valuation row)))
      (statement.formula.truth ((base.symbolsWith statement).valuation row))) ({} : Tally)
  simp only [tabulate, Circuit.eval_conjunction, Circuit.eval_ofFormula]
  rw [hfold, Tally.foldl_add, ← length_freeSymbols]
  simp only [List.countP_map, List.length_map, List.length_range, UInt64.zero_add, holds_eq_all]
  rfl

variable {base statement}

/-- The rows that satisfy a condition of models are as many as the assignments that do. -/
theorem countP_row {p : Valuation → Bool} (hp : DependsOn (base.mentioned statement) p)
    (hmodel : ∀ v, p v = true → base.holds v = true) :
    (List.range (2 ^ (base.freeSymbols statement).length)).countP (fun k =>
      p (Odometer.rowValuation (base.symbolsWith statement) base.seed k)) =
      countAssignments (base.mentioned statement) p := by
  rw [length_freeSymbols]
  exact Odometer.countP_rowValuation (mem_mentioned_iff_mem_symbols base statement) hp
    fun v hv => base.agrees_of_holds (hmodel v hv)

variable (base statement) in
/-- The counters of a check are numbers of assignments to all symbols that are mentioned, as far as
they fit into a counter. -/
theorem tally_eq_counts :
    (base.tabulate statement).tally = {
      assignments := .ofNat (2 ^ (base.freeSymbols statement).length)
      models := .ofNat (countAssignments (base.mentioned statement) base.holds)
      holding := .ofNat (countAssignments (base.mentioned statement)
        fun v => base.holds v && statement.formula.truth v)
      failing := .ofNat (countAssignments (base.mentioned statement)
        fun v => base.holds v && !statement.formula.truth v) } := by
  have hmodels := base.dependsOn_holds statement
  have htruth := base.dependsOn_truth statement
  rw [tally_tabulate, ← countP_row hmodels fun _ hv => hv,
    ← countP_row (hmodels.and htruth) fun _ hv => (Bool.and_eq_true_iff.1 hv).1,
    ← countP_row (hmodels.and htruth.not) fun _ hv => (Bool.and_eq_true_iff.1 hv).1]

/-- There are no more models than rows. -/
theorem countAssignments_le_rows {p : Valuation → Bool} (hp : DependsOn (base.mentioned statement) p)
    (hmodel : ∀ v, p v = true → base.holds v = true) :
    countAssignments (base.mentioned statement) p ≤ 2 ^ (base.freeSymbols statement).length := by
  rw [← countP_row hp hmodel]
  exact List.countP_le_length.trans_eq List.length_range

/-- A number of models fits into a counter. -/
theorem toNat_countAssignments (hfree : (base.freeSymbols statement).length < 64)
    {p : Valuation → Bool} (hp : DependsOn (base.mentioned statement) p)
    (hmodel : ∀ v, p v = true → base.holds v = true) :
    (UInt64.ofNat (countAssignments (base.mentioned statement) p)).toNat =
      countAssignments (base.mentioned statement) p := by
  have hpow : 2 ^ (base.freeSymbols statement).length < 2 ^ 64 :=
    Nat.pow_lt_pow_right Nat.one_lt_two hfree
  rw [UInt64.toNat_ofNat', Nat.mod_eq_of_lt ((countAssignments_le_rows hp hmodel).trans_lt hpow)]

/-- The counters of a check are numbers of assignments to all symbols that are mentioned. -/
theorem toNat_tally (hfree : (base.freeSymbols statement).length < 64) :
    (base.tabulate statement).tally.assignments.toNat =
        2 ^ (base.freeSymbols statement).length ∧
      (base.tabulate statement).tally.models.toNat =
        countAssignments (base.mentioned statement) base.holds ∧
      (base.tabulate statement).tally.holding.toNat =
        countAssignments (base.mentioned statement)
          (fun v => base.holds v && statement.formula.truth v) ∧
      (base.tabulate statement).tally.failing.toNat =
        countAssignments (base.mentioned statement)
          (fun v => base.holds v && !statement.formula.truth v) := by
  have hmodels := base.dependsOn_holds statement
  have htruth := base.dependsOn_truth statement
  have hpow : 2 ^ (base.freeSymbols statement).length < 2 ^ 64 :=
    Nat.pow_lt_pow_right Nat.one_lt_two hfree
  rw [tally_eq_counts]
  refine ⟨?assignments, ?models, ?holding, ?failing⟩
  case assignments => rw [UInt64.toNat_ofNat', Nat.mod_eq_of_lt hpow]
  case models => exact toNat_countAssignments hfree hmodels fun _ hv => hv
  case holding =>
    exact toNat_countAssignments hfree (hmodels.and htruth)
      fun _ hv => (Bool.and_eq_true_iff.1 hv).1
  case failing =>
    exact toNat_countAssignments hfree (hmodels.and htruth.not)
      fun _ hv => (Bool.and_eq_true_iff.1 hv).1

end ValidBase

end Consequence
