import Consequence.Formula.Truth

/-!
# Truth values of formulas

* `Formula.truth_congr`: only the values of the symbols of a formula matter to its truth value.
* `Formula.truth_literal`: a literal holds where its symbol has its polarity.
* `Formula.mem_atoms_of_literal?`: the name of a literal is its symbol.
-/

set_option autoImplicit false

namespace Consequence.Formula

theorem truth_atom (v : Valuation) (name : String) : (atom name).truth v = v name := by
  rw [truth]

theorem truth_node (v : Valuation) (op : Connective) (fs : List Formula) :
    (node op fs).truth v = op.reading (fs.map (·.truth v)) := by
  rw [truth]

/-- Valuations that agree on the symbols of a formula give it the same truth value. -/
theorem truth_congr {v w : Valuation} {f : Formula} (h : ∀ name ∈ f.atoms, v name = w name) :
    f.truth v = f.truth w := by
  induction f using induct with
  | atom name =>
    rw [truth_atom, truth_atom]
    exact h name (by simp [atoms_atom])
  | node op fs ih =>
    have hfs : fs.map (·.truth v) = fs.map (·.truth w) :=
      List.map_congr_left fun f hf => ih f hf fun name hname =>
        h name (mem_atoms_node.2 ⟨f, hf, hname⟩)
    rw [truth_node, truth_node, hfs]

theorem truth_literal {f : Formula} {name : String} {value : Bool}
    (h : f.literal? = some (name, value)) (v : Valuation) : f.truth v = (v name == value) := by
  unfold literal? at h
  split at h
  · cases h; simp [truth]
  · cases h; cases hv : v name <;> simp [truth, Connective.reading, hv]
  · cases h

theorem mem_atoms_of_literal? {f : Formula} {name : String} {value : Bool}
    (h : f.literal? = some (name, value)) : name ∈ f.atoms := by
  unfold literal? at h
  split at h
  · cases h; simp [atoms]
  · cases h; simp [atoms]
  · cases h

end Consequence.Formula
