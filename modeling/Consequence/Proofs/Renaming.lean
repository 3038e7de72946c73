import Mathlib
import Consequence.Proofs.Classification
import Consequence.Proofs.PrefixRendering

/-!
# Renaming symbols

A check knows symbols by their slots, and slots come from the order in which symbols appear. So a check
of a base and a statement whose symbols were renamed, different ones differently, is the same walk over
the same rows. The seed is sorted by name, and its order may change; no step of a check depends on it.

* `Formula.rename`: the renamed formula, with its symbols, literals and operand counts.
* `Symbols.Renamed`: two tables with the same slots; `Symbols.Renamed.foldl_insert` keeps it, and
  `Symbols.Renamed.ofFormula` compiles both formulas to one circuit.
* `Seed.Renamed`: two seeds with the same pinned values; `Seed.Renamed.foldl_add` keeps it.
* `Odometer.start_renamed`: so both walks start alike.
* `ValidBase.tabulate_renamed`: the outcome of both checks.
-/

set_option autoImplicit false

namespace Consequence

variable {ρ : String → String}

/-! ## Formulas -/

namespace Formula

/-- The formula with every symbol renamed. -/
def rename (ρ : String → String) : Formula → Formula
  | atom name => atom (ρ name)
  | node op fs => node op (fs.map fun f => f.rename ρ)

theorem rename_atom (name : String) : (atom name).rename ρ = atom (ρ name) := by
  rw [rename]

theorem rename_node (op : Connective) (fs : List Formula) :
    (node op fs).rename ρ = node op (fs.map (·.rename ρ)) := by
  rw [rename]

theorem atoms_rename (f : Formula) : (f.rename ρ).atoms = f.atoms.map ρ := by
  induction f using induct with
  | atom name => simp [rename_atom, atoms_atom]
  | node op fs ih =>
    rw [rename_node, atoms_node, atoms_node, List.flatMap_map, List.map_flatMap]
    exact List.flatMap_congr ih

/-- A literal stays a literal of the same polarity, and nothing else becomes one. -/
theorem literal?_rename (f : Formula) :
    (f.rename ρ).literal? = f.literal?.map (Prod.map ρ id) := by
  cases f with
  | atom name => rw [rename_atom]; rfl
  | node op fs =>
    rw [rename_node]
    cases op with
    | not =>
      obtain _ | ⟨f, _ | ⟨g, fs⟩⟩ := fs
      · rfl
      · cases f <;> simp [rename_atom, rename_node, literal?]
      · simp [literal?]
    | and | or | xor | implies | iff => rfl

theorem WellFormed.rename {f : Formula} (h : f.WellFormed)
    (hsymbols : ∀ name ∈ f.atoms, IsSymbol (ρ name)) : (f.rename ρ).WellFormed := by
  induction f using induct with
  | atom name =>
    rw [rename_atom, wellFormed_atom_iff]
    exact hsymbols name (by simp [atoms_atom])
  | node op fs ih =>
    obtain ⟨hcount, hall⟩ := wellFormed_node_iff.1 h
    rw [rename_node, wellFormed_node_iff, List.length_map, List.forall_mem_map]
    refine ⟨hcount, fun f hf => ih f hf (hall f hf) fun name hname => ?_⟩
    exact hsymbols name (mem_atoms_node.2 ⟨f, hf, hname⟩)

end Formula

/-! ## Tables -/

namespace Symbols

/-- The second table has the names of the first one, renamed, in the same slots. -/
structure Renamed (ρ : String → String) (known : Set String) (symbols renamed : Symbols) : Prop where
  within : ∀ name ∈ symbols.names, name ∈ known
  names : renamed.names.toList = symbols.names.toList.map ρ

namespace Renamed

variable {known : Set String} {symbols renamed : Symbols} {name : String} {slot : Nat}

theorem empty : Renamed ρ known empty empty :=
  ⟨fun _ h => absurd h not_mem_empty, rfl⟩

theorem mem_iff (h : Renamed ρ known symbols renamed) (hinj : Set.InjOn ρ known)
    (hname : name ∈ known) : ρ name ∈ renamed.names ↔ name ∈ symbols.names := by
  rw [← Array.mem_toList_iff, h.names, List.mem_map]
  constructor
  · rintro ⟨other, hother, heq⟩
    have hmem := Array.mem_toList_iff.1 hother
    rwa [← hinj (h.within other hmem) hname heq]
  · intro hmem
    exact ⟨name, Array.mem_toList_iff.2 hmem, rfl⟩

theorem insert (h : Renamed ρ known symbols renamed) (hinj : Set.InjOn ρ known)
    (hname : name ∈ known) : Renamed ρ known (symbols.insert name) (renamed.insert (ρ name)) where
  within other hother := by
    rcases mem_insert.1 hother with hold | rfl
    · exact h.within other hold
    · exact hname
  names := by
    have hiff := h.mem_iff hinj hname
    unfold Symbols.insert
    by_cases hmem : name ∈ symbols.names
    · simp [hmem, hiff.2 hmem, h.names]
    · simp [hmem, mt hiff.1 hmem, h.names]

theorem foldl_insert (hinj : Set.InjOn ρ known) {names : List String}
    (hnames : ∀ name ∈ names, name ∈ known) (h : Renamed ρ known symbols renamed) :
    Renamed ρ known (names.foldl Symbols.insert symbols)
      ((names.map ρ).foldl Symbols.insert renamed) := by
  induction names generalizing symbols renamed with
  | nil => exact h
  | cons name names ih =>
    obtain ⟨hname, hnames⟩ := List.forall_mem_cons.1 hnames
    exact ih hnames (h.insert hinj hname)

theorem size_eq (h : Renamed ρ known symbols renamed) : renamed.size = symbols.size := by
  have hlength := congrArg List.length h.names
  simpa [size] using hlength

theorem nameAt_eq (h : Renamed ρ known symbols renamed) (hslot : slot < symbols.size) :
    renamed.nameAt slot = ρ (symbols.nameAt slot) := by
  have hslot' : slot < renamed.size := by rw [h.size_eq]; exact hslot
  rw [nameAt_eq_get hslot, nameAt_eq_get hslot']
  simp [h.names]

theorem slotOf_eq (h : Renamed ρ known symbols renamed) (hname : name ∈ symbols.names) :
    renamed.slotOf (ρ name) = symbols.slotOf name := by
  have hslot := slotOf_lt hname
  rw [← nameAt_slotOf hname, ← h.nameAt_eq hslot, nameAt_slotOf hname,
    slotOf_nameAt (by rw [h.size_eq]; exact hslot)]

/-- Formulas that differ in their names only are compiled to the same circuit. -/
theorem ofFormula_eq (h : Renamed ρ known symbols renamed) {f : Formula}
    (hf : ∀ name ∈ f.atoms, name ∈ symbols.names) :
    Circuit.ofFormula renamed (f.rename ρ) = Circuit.ofFormula symbols f := by
  induction f using Formula.induct with
  | atom name =>
    rw [Formula.rename_atom, Circuit.ofFormula, Circuit.ofFormula,
      h.slotOf_eq (hf name (by simp [Formula.atoms_atom]))]
  | node op fs ih =>
    rw [Formula.rename_node, Circuit.ofFormula, Circuit.ofFormula, List.map_map]
    congr 1
    refine List.map_congr_left fun f hmem => ih f hmem fun name hname => ?_
    exact hf name (Formula.mem_atoms_node.2 ⟨f, hmem, hname⟩)

end Renamed

end Symbols

/-! ## Seeds -/

namespace Seed

/-- The second seed pins the names of the first one, renamed, to the same values. -/
structure Renamed (ρ : String → String) (known : Set String) (seed renamed : Seed) : Prop where
  within : ∀ name ∈ seed, name ∈ known
  value : ∀ name ∈ known, renamed[ρ name]? = seed[name]?
  image : ∀ name ∈ renamed, ∃ other ∈ known, ρ other = name

namespace Renamed

variable {known : Set String} {seed renamed : Seed}

theorem empty : Renamed ρ known ∅ ∅ where
  within name h := absurd h Std.TreeMap.not_mem_emptyc
  value name h := by simp
  image name h := absurd h Std.TreeMap.not_mem_emptyc

theorem insert (h : Renamed ρ known seed renamed) (hinj : Set.InjOn ρ known) {name : String}
    (hname : name ∈ known) (value : Bool) :
    Renamed ρ known (Std.TreeMap.insert seed name value) (Std.TreeMap.insert renamed (ρ name) value) where
  within other hother := by
    rw [Std.TreeMap.mem_insert, Std.LawfulEqOrd.compare_eq_iff_eq] at hother
    rcases hother with rfl | hold
    · exact hname
    · exact h.within other hold
  value other hother := by
    rw [Std.TreeMap.getElem?_insert, Std.TreeMap.getElem?_insert, h.value other hother]
    simp only [Std.LawfulEqOrd.compare_eq_iff_eq, hinj.eq_iff hname hother]
  image other hother := by
    rw [Std.TreeMap.mem_insert, Std.LawfulEqOrd.compare_eq_iff_eq] at hother
    rcases hother with rfl | hold
    · exact ⟨name, hname, rfl⟩
    · exact h.image other hold

theorem add (h : Renamed ρ known seed renamed) (hinj : Set.InjOn ρ known) {f : Formula}
    (hf : ∀ name ∈ f.atoms, name ∈ known) :
    Renamed ρ known (seed.add f) (renamed.add (f.rename ρ)) := by
  unfold Seed.add
  rw [Formula.literal?_rename]
  rcases hliteral : f.literal? with _ | ⟨name, value⟩
  · exact h
  · exact h.insert hinj (hf name (Formula.mem_atoms_of_literal? hliteral)) value

theorem foldl_add (hinj : Set.InjOn ρ known) {fs : List Formula}
    (hfs : ∀ f ∈ fs, ∀ name ∈ f.atoms, name ∈ known) (h : Renamed ρ known seed renamed) :
    Renamed ρ known (fs.foldl Seed.add seed) ((fs.map (·.rename ρ)).foldl Seed.add renamed) := by
  induction fs generalizing seed renamed with
  | nil => exact h
  | cons f fs ih =>
    obtain ⟨hf, hfs⟩ := List.forall_mem_cons.1 hfs
    exact ih hfs (h.add hinj hf)

/-- What is pinned in the second seed is pinned in the first one under the old name. -/
theorem getElem?_eq_some_iff (h : Renamed ρ known seed renamed) {name : String} {value : Bool} :
    renamed[name]? = some value ↔ ∃ other, seed[other]? = some value ∧ ρ other = name := by
  constructor
  · intro hpin
    have hmem : name ∈ renamed := by
      rw [Std.TreeMap.mem_iff_isSome_getElem?, hpin]
      rfl
    obtain ⟨other, hother, rfl⟩ := h.image name hmem
    exact ⟨other, by rw [← h.value other hother, hpin], rfl⟩
  · rintro ⟨other, hpin, rfl⟩
    have hmem : other ∈ seed := by
      rw [Std.TreeMap.mem_iff_isSome_getElem?, hpin]
      rfl
    rw [h.value other (h.within other hmem), hpin]

end Renamed

end Seed

/-! ## Walks -/

/-- The same slots are free, and the first row is the same. -/
theorem Odometer.start_renamed {known : Set String} {symbols renamed : Symbols} {seed pinned : Seed}
    (h : Symbols.Renamed ρ known symbols renamed) (hseed : Seed.Renamed ρ known seed pinned) :
    start renamed pinned = start symbols seed := by
  have hvalue (name : String) (hname : name ∈ symbols.names) : pinned[ρ name]? = seed[name]? :=
    hseed.value name (h.within name hname)
  unfold start
  congr 1
  · rw [h.size_eq]
    refine List.filter_congr fun slot hslot => ?_
    have hlt := List.mem_range.1 hslot
    rw [h.nameAt_eq hlt, Std.TreeMap.contains_eq_isSome_getElem?,
      Std.TreeMap.contains_eq_isSome_getElem?, hvalue _ (Symbols.nameAt_mem hlt)]
  · congr 1
    rw [← Array.toList_inj, Array.toList_map, Array.toList_map, h.names, List.map_map]
    refine List.map_congr_left fun name hname => ?_
    show pinned.getD (ρ name) false = seed.getD name false
    rw [Std.TreeMap.getD_eq_getD_getElem?, Std.TreeMap.getD_eq_getD_getElem?,
      hvalue name (Array.mem_toList_iff.1 hname)]

/-! ## Checks -/

namespace ValidBase

section
variable {base other : ValidBase} {q p : Statement}
  (hinj : Set.InjOn ρ (base.mentioned q))
  (hbase : other.formulas = base.formulas.map (·.rename ρ)) (hq : p.formula = q.formula.rename ρ)
include hinj hbase hq

theorem symbolsWith_renamed :
    Symbols.Renamed ρ (base.mentioned q) (base.symbolsWith q) (other.symbolsWith p) := by
  have hatoms : (other.formulas ++ [p.formula]).flatMap Formula.atoms =
      ((base.formulas ++ [q.formula]).flatMap Formula.atoms).map ρ := by
    simp [hbase, hq, List.flatMap_map, List.map_flatMap, Formula.atoms_rename]
  rw [symbolsWith_eq_foldl, symbolsWith_eq_foldl, hatoms]
  exact Symbols.Renamed.empty.foldl_insert hinj fun name hname => List.mem_toFinset.2 hname

omit hq in
theorem seed_renamed : Seed.Renamed ρ (base.mentioned q) base.seed other.seed := by
  unfold seed Seed.ofFormulas
  rw [hbase]
  refine Seed.Renamed.empty.foldl_add hinj fun f hf name hname => ?_
  exact (base.mem_mentioned q).2 (.inl ⟨f, hf, hname⟩)

theorem start_renamed :
    Odometer.start (other.symbolsWith p) other.seed = Odometer.start (base.symbolsWith q) base.seed :=
  Odometer.start_renamed (symbolsWith_renamed hinj hbase hq) (seed_renamed hinj hbase)

/-- The circuits are the same too, so the rows are counted alike. -/
theorem tally_renamed : (other.tabulate p).tally = (base.tabulate q).tally := by
  have h := symbolsWith_renamed hinj hbase hq
  have hnames (f : Formula) (hf : f ∈ base.formulas) : ∀ name ∈ f.atoms,
      name ∈ (base.symbolsWith q).names := fun name hname =>
    (base.mem_mentioned_iff_mem_symbols q name).1 ((base.mem_mentioned q).2 (.inl ⟨f, hf, hname⟩))
  have hpremises : other.formulas.map (Circuit.ofFormula (other.symbolsWith p)) =
      base.formulas.map (Circuit.ofFormula (base.symbolsWith q)) := by
    rw [hbase, List.map_map]
    exact List.map_congr_left fun f hf => h.ofFormula_eq (hnames f hf)
  have hgoal : Circuit.ofFormula (other.symbolsWith p) p.formula =
      Circuit.ofFormula (base.symbolsWith q) q.formula := by
    rw [hq]
    exact h.ofFormula_eq fun name hname =>
      (base.mem_mentioned_iff_mem_symbols q name).1 ((base.mem_mentioned q).2 (.inr hname))
  simp only [tabulate, hpremises, hgoal, start_renamed hinj hbase hq]

theorem freeSymbols_renamed : other.freeSymbols p = (base.freeSymbols q).map ρ := by
  rw [freeSymbols_eq_map, freeSymbols_eq_map, start_renamed hinj hbase hq, List.map_map]
  refine List.map_congr_left fun slot hslot => ?_
  exact (symbolsWith_renamed hinj hbase hq).nameAt_eq ((Odometer.mem_free_start _ _).1 hslot).1

end

/-- **Verdicts do not depend on names**: a base and a statement whose symbols were renamed to legal ones,
different ones differently, are accepted too, and a check gives the same verdict and the same counters.
The free symbols are the renamed ones in the same order, and the seed pins the renamed symbols to the
same values. -/
theorem tabulate_renamed {base : ValidBase} {q : Statement} {kb : KnowledgeBase}
    (hinj : Set.InjOn ρ (base.mentioned q)) (hsymbols : ∀ name ∈ base.mentioned q, IsSymbol (ρ name))
    (hkb : kb.clauses.map (·.formula) = base.clauses.map (·.formula.rename ρ)) :
    ∃ other p, kb.validate = .ok other ∧ Statement.ofFormula (q.formula.rename ρ) = .ok p ∧
      (other.tabulate p).verdict = (base.tabulate q).verdict ∧
      (other.tabulate p).tally = (base.tabulate q).tally ∧
      (other.tabulate p).freeSymbols = (base.tabulate q).freeSymbols.map ρ ∧
      ∀ name value, (other.tabulate p).seed[name]? = some value ↔
        ∃ old, (base.tabulate q).seed[old]? = some value ∧ ρ old = name := by
  have hformulas : ∀ clause ∈ kb.clauses, clause.formula.WellFormed := by
    intro clause hclause
    obtain ⟨c, hc, hformula⟩ : ∃ c ∈ base.clauses, c.formula.rename ρ = clause.formula := by
      rw [← List.mem_map, ← hkb]
      exact List.mem_map_of_mem hclause
    rw [← hformula]
    refine (base.wellFormed c hc).rename fun name hname => hsymbols name ?_
    exact (base.mem_mentioned q).2 (.inl ⟨c.formula, List.mem_map_of_mem hc, hname⟩)
  have hquestion : (q.formula.rename ρ).WellFormed :=
    q.wellFormed.rename fun name hname => hsymbols name ((base.mem_mentioned q).2 (.inr hname))
  let other : ValidBase := ⟨kb, hformulas⟩
  let p : Statement := ⟨.inMemory (q.formula.rename ρ), hquestion⟩
  have hbase : other.formulas = base.formulas.map (·.rename ρ) := by
    show kb.clauses.map (·.formula) = _
    rw [hkb, formulas, List.map_map]
    rfl
  have htally : (other.tabulate p).tally = (base.tabulate q).tally := tally_renamed hinj hbase rfl
  refine ⟨other, p, KnowledgeBase.validate_eq_ok_iff.2 rfl, Statement.ofClause_eq_ok_iff.2 rfl, ?_,
    htally, ?_, fun name value => (seed_renamed hinj hbase).getElem?_eq_some_iff⟩
  · rw [verdict_tabulate, verdict_tabulate, htally]
  · rw [freeSymbols_tabulate, freeSymbols_tabulate]
    exact freeSymbols_renamed hinj hbase rfl

/-- The base `disjunctive` with `z` for `p` and `a` for `q`, which come in the other order. -/
def disjunctiveRenamed : KnowledgeBase where
  clauses := [.inMemory (.node .or [.atom "z", .atom "a"]), .inMemory (.node .not [.atom "z"])]

/-- The renaming need not tell other names apart. -/
theorem tabulate_renamed_disjunctive :
    Set.InjOn (fun name => if name = "p" then "z" else "a") (disjunctive.mentioned askingQ) ∧
      (∀ name ∈ disjunctive.mentioned askingQ, IsSymbol (if name = "p" then "z" else "a")) ∧
      ∃ other p, disjunctiveRenamed.validate = .ok other ∧ Statement.ofFormula (.atom "a") = .ok p ∧
        (other.tabulate p).verdict = .follows ∧ (other.tabulate p).tally = ⟨2, 1, 1, 0⟩ ∧
        (other.tabulate p).freeSymbols = ["a"] ∧ (other.tabulate p).seed["z"]? = some false := by
  have hmentioned : disjunctive.mentioned askingQ = {"p", "q"} := by
    ext name
    simp only [mem_mentioned, formulas, disjunctive, askingQ, Statement.formula, Clause.inMemory,
      List.map_cons, List.map_nil, List.mem_cons, List.not_mem_nil, or_false, exists_eq_or_imp,
      exists_eq_left, Formula.atoms, List.flatMap_cons, List.flatMap_nil, List.append_nil,
      List.singleton_append, Finset.mem_insert, Finset.mem_singleton]
    tauto
  have hinj : Set.InjOn (fun name => if name = "p" then "z" else "a") (disjunctive.mentioned askingQ) := by
    rw [hmentioned]
    simp [Set.InjOn]
  have hsymbols : ∀ name ∈ disjunctive.mentioned askingQ, IsSymbol (if name = "p" then "z" else "a") := by
    have hnames : IsSymbol "z" ∧ IsSymbol "a" := by decide +kernel
    intro name _
    split
    · exact hnames.1
    · exact hnames.2
  obtain ⟨other, p, hvalid, hquestion, hverdict, htally, hfree, hseed⟩ :=
    @tabulate_renamed (fun name => if name = "p" then "z" else "a") disjunctive askingQ
      disjunctiveRenamed hinj hsymbols (by cbv)
  refine ⟨hinj, hsymbols, other, p, hvalid, ?_, ?_, ?_, ?_, ?_⟩
  · rw [← hquestion]
    congr 1
    cbv
  · rw [hverdict]
    cbv
  · rw [htally]
    cbv
  · rw [hfree]
    cbv
  · exact (hseed "z" false).2 ⟨"p", by decide, rfl⟩

end ValidBase

end Consequence
