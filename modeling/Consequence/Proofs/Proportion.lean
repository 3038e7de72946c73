import Mathlib
import Consequence.Proofs.Classification

/-!
# The share of models

Every statement brings its own symbols into a check, in slots of its own, and doubles the assignments
with each of them that the base does not have. The share of models among the assignments is that of the
base, whatever is asked.

* `countAssignments_of_subset`: where a condition looks at some of the names only, each of the other
  names doubles the assignments that satisfy it.
* `ValidBase.length_freeSymbols_eq`: the symbols that the base does not have are all free.
* `ValidBase.tally_eq_mul`: so a check counts `2 ^ n` times what the base alone gives.
* `ValidBase.models_proportional`: two checks have the same share of models.
-/

set_option autoImplicit false

namespace Consequence

/-! ## Assignments to more names -/

/-- The values that a valuation gives to some names. -/
def Valuation.restrict (v : Valuation) (names : Finset String) : Assignment names :=
  fun name => v name

theorem Assignment.valuation_restrict {names : Finset String} {v : Valuation} {name : String}
    (h : name ∈ names) : (v.restrict names).valuation name = v name :=
  Assignment.valuation_of_mem _ h

/-- The values of one assignment, and those of the other one where the first has none. -/
def Assignment.or {names others : Finset String} (a : Assignment names) (b : Assignment others) :
    Valuation :=
  fun name => if name ∈ names then a.valuation name else b.valuation name

theorem countAssignments_of_subset {names larger : Finset String} (hsub : names ⊆ larger)
    {p : Valuation → Bool} (hp : DependsOn names p) :
    countAssignments larger p = countAssignments names p * 2 ^ (larger \ names).card := by
  rw [← card_assignment, ← Finset.card_univ, countAssignments, countAssignments,
    ← Finset.card_product]
  -- an assignment is sent to its values at the names and its values at the others
  refine Finset.card_bij'
    (fun a _ => (a.valuation.restrict names, a.valuation.restrict (larger \ names)))
    (fun ab _ => (ab.1.or ab.2).restrict larger) ?_ ?_ ?_ ?_
  · intro a ha
    simp only [Finset.mem_filter, Finset.mem_univ, true_and] at ha
    simp only [Finset.mem_product, Finset.mem_filter, Finset.mem_univ, true_and, and_true]
    rw [← ha]
    exact hp _ _ fun name hname => Assignment.valuation_restrict hname
  · intro ab hab
    simp only [Finset.mem_product, Finset.mem_filter, Finset.mem_univ, true_and, and_true] at hab
    simp only [Finset.mem_filter, Finset.mem_univ, true_and]
    rw [← hab]
    refine hp _ _ fun name hname => ?_
    rw [Assignment.valuation_restrict (hsub hname), Assignment.or, if_pos hname]
  · intro a ha
    funext entry
    obtain ⟨name, hlarger⟩ := entry
    show Assignment.or _ _ name = a ⟨name, hlarger⟩
    unfold Assignment.or
    split
    · next hname => rw [Assignment.valuation_restrict hname, Assignment.valuation_of_mem a hlarger]
    · next hname =>
      rw [Assignment.valuation_restrict (Finset.mem_sdiff.2 ⟨hlarger, hname⟩),
        Assignment.valuation_of_mem a hlarger]
  · rintro ⟨a, b⟩ hab
    refine Prod.ext (funext fun entry => ?_) (funext fun entry => ?_)
    · obtain ⟨name, hname⟩ := entry
      show ((a.or b).restrict larger).valuation name = a ⟨name, hname⟩
      rw [Assignment.valuation_restrict (hsub hname), Assignment.or, if_pos hname,
        Assignment.valuation_of_mem a hname]
    · obtain ⟨name, hname⟩ := entry
      show ((a.or b).restrict larger).valuation name = b ⟨name, hname⟩
      obtain ⟨hlarger, hother⟩ := Finset.mem_sdiff.1 hname
      rw [Assignment.valuation_restrict hlarger, Assignment.or, if_neg hother,
        Assignment.valuation_of_mem b hname]

namespace ValidBase

variable {base : ValidBase} {q : Statement}

/-! ## The symbols of the base -/

theorem mem_ownNames_of_mem_seed {name : String} (h : name ∈ base.seed) : name ∈ base.ownNames := by
  obtain ⟨f, hf, value, hliteral⟩ := Seed.mem_ofFormulas_iff.1 h
  exact base.mem_ownNames.2 ⟨f, hf, Formula.mem_atoms_of_literal? hliteral⟩

/-- The symbols of the base that are not pinned. -/
def ownFree (base : ValidBase) : Finset String :=
  base.ownNames.filter (· ∉ base.seed)

theorem length_freeSymbols_eq (base : ValidBase) (q : Statement) :
    (base.freeSymbols q).length =
      base.ownFree.card + (base.mentioned q \ base.ownNames).card := by
  have hdisjoint : Disjoint base.ownFree (base.mentioned q \ base.ownNames) := by
    rw [Finset.disjoint_left]
    intro name hname hother
    exact (Finset.mem_sdiff.1 hother).2 (Finset.mem_filter.1 hname).1
  rw [← List.toFinset_card_of_nodup (base.nodup_freeSymbols q), ← Finset.card_union_of_disjoint hdisjoint]
  congr 1
  ext name
  have hown : name ∈ base.ownNames → name ∈ base.mentioned q :=
    fun h => base.ownNames_subset_mentioned q h
  have hseed : name ∈ base.seed → name ∈ base.ownNames := mem_ownNames_of_mem_seed
  rw [List.mem_toFinset, mem_freeSymbols, Finset.mem_union, ownFree, Finset.mem_filter, Finset.mem_sdiff]
  tauto

/-! ## Shares -/

/-- A check counts as many times what the base alone has as the new symbols have assignments. -/
theorem tally_eq_mul (hfree : (base.freeSymbols q).length < 64) :
    (base.tabulate q).tally.assignments.toNat =
        2 ^ base.ownFree.card * 2 ^ (base.mentioned q \ base.ownNames).card ∧
      (base.tabulate q).tally.models.toNat =
        countAssignments base.ownNames base.holds * 2 ^ (base.mentioned q \ base.ownNames).card := by
  obtain ⟨hassignments, hmodels, -⟩ := toNat_tally hfree
  rw [hassignments, hmodels, length_freeSymbols_eq, Nat.pow_add]
  exact ⟨rfl, countAssignments_of_subset (ownNames_subset_mentioned base q) base.dependsOn_holds_own⟩

/-- **The share of models depends on the base alone**: whatever two statements ask, and whatever symbols
they bring, the models of both checks are in the proportion of their assignments, and both find the base
inconsistent or neither does. -/
theorem models_proportional {base : ValidBase} {p q : Statement}
    (hp : (base.freeSymbols p).length < 64) (hq : (base.freeSymbols q).length < 64) :
    (base.tabulate p).tally.models.toNat * (base.tabulate q).tally.assignments.toNat =
        (base.tabulate q).tally.models.toNat * (base.tabulate p).tally.assignments.toNat ∧
      ((base.tabulate p).verdict = .inconsistent ↔ (base.tabulate q).verdict = .inconsistent) := by
  obtain ⟨hassignments, hmodels⟩ := tally_eq_mul hp
  obtain ⟨hassignments', hmodels'⟩ := tally_eq_mul hq
  constructor
  · rw [hassignments, hmodels, hassignments', hmodels']
    ring
  · rw [verdict_eq_inconsistent_iff hp, verdict_eq_inconsistent_iff hq]

/-- The statement `(xor r (not s))`. -/
def askingXor : Statement where
  clause := .inMemory (.node .xor [.atom "r", .node .not [.atom "s"]])
  wellFormed := by
    simp [Clause.inMemory, Formula.wellFormed_node_iff, Formula.wellFormed_atom_iff]
    decide

/-- One of two assignments is a model where `q` is asked, and four of eight where two new symbols are. -/
theorem models_proportional_disjunctive :
    (disjunctive.freeSymbols askingQ).length < 64 ∧ (disjunctive.freeSymbols askingXor).length < 64 ∧
      (disjunctive.tabulate askingQ).tally = ⟨2, 1, 1, 0⟩ ∧
      (disjunctive.tabulate askingXor).tally.assignments = 8 ∧
      (disjunctive.tabulate askingXor).tally.models = 4 ∧
      (disjunctive.tabulate askingXor).verdict ≠ .inconsistent := by
  have hp : (disjunctive.freeSymbols askingQ).length < 64 := by cbv
  have hq : (disjunctive.freeSymbols askingXor).length < 64 := by cbv
  have htally : (disjunctive.tabulate askingQ).tally = ⟨2, 1, 1, 0⟩ := by cbv
  have hassignments : (disjunctive.tabulate askingXor).tally.assignments = 8 := by cbv
  obtain ⟨hshare, hverdict⟩ := models_proportional hp hq
  rw [htally, hassignments] at hshare
  have hmodels : (disjunctive.tabulate askingXor).tally.models.toNat = 4 := by
    have hshare : 1 * 8 = (disjunctive.tabulate askingXor).tally.models.toNat * 2 := hshare
    omega
  refine ⟨hp, hq, htally, hassignments, UInt64.toNat_inj.1 hmodels, ?_⟩
  rw [ne_eq, ← hverdict]
  have hfollows : (disjunctive.tabulate askingQ).verdict = .follows := by cbv
  simp [hfollows]

end ValidBase

end Consequence
