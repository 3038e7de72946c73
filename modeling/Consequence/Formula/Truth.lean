import Consequence.Formula.Basic

/-!
# Truth of formulas

The truth value of a formula under a valuation of all symbol names. Each connective has a reading
for every operand count: `not` denies that all operands hold, `xor` asks for an odd number of them,
`if` nests to the right, and `iff` asks that all operands agree with the first.
-/

set_option autoImplicit false

namespace Consequence

/-- A truth value for every symbol name. -/
abbrev Valuation := String → Bool

namespace Connective

/-- Implication nested to the right: each value but the last is an antecedent. -/
def chain : List Bool → Bool
  | [] => true
  | [b] => b
  | a :: bs => !a || chain bs

/-- The truth value of a connective over the values of its operands. -/
def reading : Connective → List Bool → Bool
  | not, bs => !bs.all id
  | and, bs => bs.all id
  | or, bs => bs.any id
  | xor, bs => bs.count true % 2 == 1
  | implies, bs => chain bs
  | iff, bs => bs.all (· == bs.headD true)

end Connective

/-- The truth value of a formula. -/
def Formula.truth (v : Valuation) : Formula → Bool
  | atom name => v name
  | node op fs => op.reading (fs.map fun f => f.truth v)

end Consequence
