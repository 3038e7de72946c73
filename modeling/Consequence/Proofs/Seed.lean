import Consequence.Proofs.Truth
import Consequence.Seed
import Std.Data.TreeMap.Lemmas

/-!
# Seeds come from literals

* `Seed.getElem?_add_eq_some_iff`: what one clause does to the value of one symbol.
* `Seed.literal_of_getElem?`: what is pinned was pinned by a clause that is a literal.
* `Seed.mem_ofFormulas_iff`: the pinned symbols are those of the literals.
* `Seed.agrees_of_forall_truth`: a valuation under which every clause holds gives each pinned symbol
  its pinned value, also where literals contradict each other.
-/

set_option autoImplicit false

namespace Consequence

/-- The literal over a symbol: the atom or its negation. -/
def Formula.literal (name : String) : Bool → Formula
  | true => .atom name
  | false => .node .not [.atom name]

theorem Formula.literal?_eq_some_iff {f : Formula} {name : String} {value : Bool} :
    f.literal? = some (name, value) ↔ f = literal name value := by
  constructor
  · intro h
    unfold literal? at h
    split at h
    · cases h
      rfl
    · cases h
      rfl
    · cases h
  · rintro rfl
    cases value <;> rfl

namespace Seed

/-- The pinned symbols have their pinned values. -/
def Agrees (seed : Seed) (v : Valuation) : Prop :=
  ∀ name value, seed[name]? = some value → v name = value

/-- A clause that is no literal pins nothing. -/
theorem add_of_not_literal {seed : Seed} {f : Formula} (h : ∀ name value, f ≠ .literal name value) :
    seed.add f = seed := by
  unfold add
  split
  · next name value hliteral => exact absurd (Formula.literal?_eq_some_iff.1 hliteral) (h name value)
  · rfl

/-- A literal over the symbol sets its value, and every other clause leaves it. -/
theorem getElem?_add_eq_some_iff {seed : Seed} {f : Formula} {name : String} {value : Bool} :
    (seed.add f)[name]? = some value ↔
      f = .literal name value ∨ (∀ polarity, f ≠ .literal name polarity) ∧ seed[name]? = some value := by
  cases hliteral : f.literal? with
  | none =>
    have hnot (name : String) (value : Bool) : f ≠ .literal name value := fun h => by
      rw [Formula.literal?_eq_some_iff.2 h] at hliteral
      cases hliteral
    rw [add_of_not_literal hnot]
    simp [hnot]
  | some pinned =>
    obtain ⟨other, polarity⟩ := pinned
    have hiff (name : String) (value : Bool) :
        f = .literal name value ↔ other = name ∧ polarity = value := by
      rw [← Formula.literal?_eq_some_iff, hliteral, Option.some.injEq, Prod.mk.injEq]
    simp only [add, hliteral, Std.TreeMap.getElem?_insert, Std.LawfulEqCmp.compare_eq_iff_eq, hiff,
      ne_eq]
    by_cases hname : other = name <;> simp [hname]

/-- What is pinned was pinned by some clause. -/
theorem literal_of_getElem? {fs : List Formula} {seed : Seed} {name : String} {value : Bool}
    (h : (fs.foldl add seed)[name]? = some value) :
    seed[name]? = some value ∨ ∃ f ∈ fs, f.literal? = some (name, value) := by
  induction fs generalizing seed with
  | nil => exact .inl h
  | cons f fs ih =>
    rcases ih h with h | ⟨g, hg, hl⟩
    · rcases getElem?_add_eq_some_iff.1 h with hf | ⟨-, h⟩
      · exact .inr ⟨f, List.mem_cons_self, Formula.literal?_eq_some_iff.2 hf⟩
      · exact .inl h
    · exact .inr ⟨g, List.mem_cons_of_mem f hg, hl⟩

theorem mem_add {seed : Seed} {f : Formula} {name : String} :
    name ∈ seed.add f ↔ name ∈ seed ∨ ∃ value, f.literal? = some (name, value) := by
  unfold add
  split
  · next other polarity hf =>
    rw [Std.TreeMap.mem_insert, Std.LawfulEqOrd.compare_eq_iff_eq, or_comm, hf]
    simp
  · next hf => simp [hf]

theorem mem_foldl_add {fs : List Formula} {seed : Seed} {name : String} :
    name ∈ fs.foldl add seed ↔
      name ∈ seed ∨ ∃ f ∈ fs, ∃ value, f.literal? = some (name, value) := by
  induction fs generalizing seed with
  | nil => simp
  | cons f fs ih => rw [List.foldl_cons, ih, mem_add, or_assoc]; simp

/-- Whatever their order, the literals say which symbols are pinned. -/
theorem mem_ofFormulas_iff {fs : List Formula} {name : String} :
    name ∈ ofFormulas fs ↔ ∃ f ∈ fs, ∃ value, f.literal? = some (name, value) := by
  rw [ofFormulas, mem_foldl_add]
  simp

/-- Where all clauses hold, the pinned symbols have their pinned values. -/
theorem agrees_of_forall_truth {fs : List Formula} {v : Valuation}
    (h : ∀ f ∈ fs, f.truth v = true) : (ofFormulas fs).Agrees v := by
  intro name value hpin
  rcases literal_of_getElem? hpin with hempty | ⟨f, hf, hl⟩
  · simp at hempty
  · simpa [Formula.truth_literal hl] using h f hf

end Seed

end Consequence
