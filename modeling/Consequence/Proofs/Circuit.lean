import Consequence.Evaluation.Circuit
import Consequence.Proofs.Truth

/-!
# Circuits compute truth

* `Connective.output_eq_reading`: a gate computes the reading of its connective, at every number of
  inputs.
* `Circuit.eval_ofFormula`: a circuit computes the truth value of its formula under the valuation
  that the row spells.
-/

set_option autoImplicit false

namespace Consequence

/-! ## Gates -/

namespace Connective

/-- Parity kept bit by bit is the parity of the count. -/
theorem foldl_xor (bs : List Bool) (parity : Bool) :
    bs.foldl Bool.xor parity = (parity != (bs.count true % 2 == 1)) := by
  induction bs generalizing parity with
  | nil => cases parity <;> rfl
  | cons b bs ih =>
    rw [List.foldl_cons, ih, List.count_cons]
    rcases Nat.mod_two_eq_zero_or_one (bs.count true) with h | h <;>
      cases parity <;> cases b <;> simp [h, Nat.add_mod]

/-- An implication chain read from its consequent back to its first antecedent. -/
theorem chain_concat (antecedents : List Bool) (consequent : Bool) :
    chain (antecedents ++ [consequent]) =
      antecedents.reverse.foldl (fun held a => !a || held) consequent := by
  induction antecedents with
  | nil => rfl
  | cons a as ih =>
    rw [List.reverse_cons, List.foldl_append, ← ih]
    cases as <;> rfl

/-- A gate computes the reading of its connective. -/
theorem output_eq_reading (op : Connective) (bs : List Bool) : op.output bs = op.reading bs := by
  cases op with
  | not | and | or => rfl
  | xor => simp [output, reading, foldl_xor]
  | implies =>
    unfold output reading
    rcases List.eq_nil_or_concat bs with rfl | ⟨antecedents, consequent, rfl⟩
    · rfl
    · simp [chain_concat]
  | iff => cases bs <;> simp [output, reading]

end Connective

/-! ## Circuits -/

/-- The valuation that a row spells over the slots of a table. -/
def Symbols.valuation (symbols : Symbols) (row : Array Bool) : Valuation :=
  fun name => row.getD (symbols.slotOf name) false

namespace Circuit

theorem eval_gate (row : Array Bool) (op : Connective) (inputs : List Circuit) :
    (gate op inputs).eval row = op.output (inputs.map (·.eval row)) := by
  rw [eval]

/-- The output of a circuit is the truth value of its formula. -/
theorem eval_ofFormula (symbols : Symbols) (row : Array Bool) (f : Formula) :
    (ofFormula symbols f).eval row = f.truth (symbols.valuation row) := by
  induction f using Formula.induct with
  | atom name => rw [ofFormula, eval, Formula.truth_atom, Symbols.valuation]
  | node op fs ih =>
    have hfs : (fs.map (ofFormula symbols)).map (·.eval row) =
        fs.map (·.truth (symbols.valuation row)) := by
      rw [List.map_map]
      exact List.map_congr_left ih
    rw [ofFormula, eval_gate, hfs, Connective.output_eq_reading, Formula.truth_node]

/-- A conjunction of circuits holds just if all formulas do. -/
theorem eval_conjunction (symbols : Symbols) (row : Array Bool) (fs : List Formula) :
    (conjunction (fs.map (ofFormula symbols))).eval row =
      fs.all (·.truth (symbols.valuation row)) := by
  rw [conjunction, eval_gate, List.map_map, Connective.output, List.all_map]
  exact congrArg fs.all (funext fun f => eval_ofFormula symbols row f)

end Circuit

end Consequence
