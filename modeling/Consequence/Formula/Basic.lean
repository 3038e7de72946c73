import Consequence.Formula.Connective

/-!
# Formulas

A formula is a named atom or a connective over a list of operands, in the order in which they were
written. Any name and any operand count can be represented; `Formula.WellFormed` picks out those that
obey the grammar. Properties of formulas are proved by `Formula.induct`.
-/

set_option autoImplicit false

namespace Consequence

/-- A propositional formula. -/
inductive Formula where
  | atom (name : String)
  | node (op : Connective) (operands : List Formula)
  deriving Repr, Inhabited

namespace Formula

mutual

/-- Decides whether two formulas are equal. -/
def decEq : (f g : Formula) → Decidable (f = g)
  | atom m, atom n => decidable_of_iff (m = n) (by simp)
  | node o fs, node p gs =>
    if h : o = p then
      match decEqList fs gs with
      | isTrue h' => isTrue (by rw [h, h'])
      | isFalse h' => isFalse (by simp [h'])
    else isFalse (by simp [h])
  | atom _, node _ _ => isFalse (by simp)
  | node _ _, atom _ => isFalse (by simp)

/-- Decides whether two operand lists are equal. -/
def decEqList : (fs gs : List Formula) → Decidable (fs = gs)
  | [], [] => isTrue rfl
  | f :: fs, g :: gs =>
    match decEq f g with
    | isTrue h =>
      match decEqList fs gs with
      | isTrue h' => isTrue (by rw [h, h'])
      | isFalse h' => isFalse (by simp [h'])
    | isFalse h => isFalse (by simp [h])
  | [], _ :: _ => isFalse (by simp)
  | _ :: _, [] => isFalse (by simp)

end

instance : DecidableEq Formula := decEq

/-- A property that passes from all operands to their node holds of every formula. -/
theorem induct {motive : Formula → Prop} (atom : ∀ name, motive (.atom name))
    (node : ∀ op operands, (∀ f ∈ operands, motive f) → motive (.node op operands)) :
    ∀ f, motive f
  | .atom name => atom name
  | .node op operands => node op operands fun f _ => induct atom node f

/-- The direct operands. -/
def operands : Formula → List Formula
  | atom _ => []
  | node _ fs => fs

/-- The name of an atom. -/
def atom? : Formula → Option String
  | atom name => some name
  | node _ _ => none

/-- The name under the negation of an atom. -/
def negatedAtom? : Formula → Option String
  | node .not [atom name] => some name
  | _ => none

/-- The name and the polarity of a literal. -/
def literal? : Formula → Option (String × Bool)
  | atom name => some (name, true)
  | node .not [atom name] => some (name, false)
  | _ => none

/-- The names of all atoms from left to right, repetitions included. -/
def atoms : Formula → List String
  | atom name => [name]
  | node _ fs => fs.flatMap fun f => f.atoms

theorem atoms_atom (name : String) : (atom name).atoms = [name] := by
  rw [atoms]

theorem atoms_node (op : Connective) (fs : List Formula) :
    (node op fs).atoms = fs.flatMap atoms := by
  rw [atoms]

theorem mem_atoms_node {op : Connective} {fs : List Formula} {name : String} :
    name ∈ (node op fs).atoms ↔ ∃ f ∈ fs, name ∈ f.atoms := by
  rw [atoms_node, List.mem_flatMap]

/-- The greatest number of connectives on a way down from the top. -/
def depth : Formula → Nat
  | atom _ => 0
  | node _ fs => (fs.map fun f => f.depth).foldr max 0 + 1

end Formula

end Consequence
