import Consequence.Symbols

/-!
# Circuits

A circuit is a formula whose symbols were replaced by their slots. It is evaluated over a row, which
holds one truth value for every slot.
-/

set_option autoImplicit false

namespace Consequence

/-- The output of a gate over its inputs. Validation fixes the number of inputs of `not`, `if` and
`iff`; every other number has an output too. -/
def Connective.output : Connective → List Bool → Bool
  | not, bs => !bs.all id
  | and, bs => bs.all id
  | or, bs => bs.any id
  | xor, bs => bs.foldl Bool.xor false
  | implies, bs =>
    match bs.reverse with
    | [] => true
    | consequent :: antecedents => antecedents.foldl (fun held a => !a || held) consequent
  | iff, bs =>
    match bs with
    | [] => true
    | first :: others => others.all (· == first)

/-- A formula over slots. -/
inductive Circuit where
  | input (slot : Nat)
  | gate (op : Connective) (inputs : List Circuit)
  deriving Repr, Inhabited

namespace Circuit

/-- The circuit of a formula whose symbols all have slots. -/
def ofFormula (symbols : Symbols) : Formula → Circuit
  | .atom name => input (symbols.slotOf name)
  | .node op fs => gate op (fs.map fun f => ofFormula symbols f)

/-- The conjunction of circuits. -/
def conjunction (circuits : List Circuit) : Circuit :=
  gate .and circuits

/-- The output of a circuit over a row. -/
def eval (row : Array Bool) : Circuit → Bool
  | input slot => row.getD slot false
  | gate op inputs => op.output (inputs.map fun c => c.eval row)

end Circuit

/-- Gives slots to the new symbols of a formula, from left to right, and compiles it. -/
def Symbols.compile (symbols : Symbols) (f : Formula) : Circuit × Symbols :=
  let extended := symbols.extend f
  (Circuit.ofFormula extended f, extended)

end Consequence
