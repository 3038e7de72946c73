import Consequence.Formula.Basic
import Consequence.Text.Alphanumeric

/-!
# Well-formed formulas

A formula is well formed if every atom is a non-empty run of symbol characters and every connective
has an operand count that its arity accepts. `Formula.defect?` looks for the first rule that is
broken; `Formula.defect?_eq_none_iff` says that it finds nothing just in well-formed formulas.
-/

set_option autoImplicit false

namespace Consequence

/-- A character that a symbol or a connective word may hold. -/
def isWordChar (c : Char) : Bool :=
  c == '_' || isAlphanumeric c

/-- The way in which one atom or one connective breaks the grammar. -/
inductive Violation where
  | emptyName
  | illegalName (name : String)
  | operandCount (op : Connective) (found : Nat)
  deriving DecidableEq, Repr

namespace Violation

/-- What is wrong. -/
def text : Violation → String
  | emptyName => "Empty symbol"
  | illegalName name => s!"Illegal symbol '{name}'"
  | operandCount op found => s!"Connective '{op.word}' takes {op.arity.text}, found {found}"

/-- What would be right. -/
def suggestion : Violation → String
  | emptyName | illegalName _ => "symbols are non-empty runs of letters, digits and '_'"
  | operandCount _ _ => "not takes 1 operand, if and iff take 2, and/or/xor take 1 or more"

end Violation

namespace Formula

/-- Every atom is a non-empty run of symbol characters and every operand count is accepted. -/
inductive WellFormed : Formula → Prop where
  | atom {name : String} :
      name ≠ "" → (∀ c ∈ name.toList, isWordChar c = true) → WellFormed (.atom name)
  | node {op : Connective} {fs : List Formula} :
      op.arity.accepts fs.length = true → (∀ f ∈ fs, WellFormed f) → WellFormed (.node op fs)

/-- The first violation from the top down, operands from left to right. -/
def defect? : Formula → Option Violation
  | .atom name =>
    if name = "" then some .emptyName
    else if name.toList.all isWordChar then none
    else some (.illegalName name)
  | .node op fs =>
    if op.arity.accepts fs.length then (fs.map fun f => f.defect?).findSome? id
    else some (.operandCount op fs.length)

theorem wellFormed_atom_iff {name : String} :
    WellFormed (.atom name) ↔ name ≠ "" ∧ ∀ c ∈ name.toList, isWordChar c = true :=
  ⟨fun | .atom hne hall => ⟨hne, hall⟩, fun h => .atom h.1 h.2⟩

theorem wellFormed_node_iff {op : Connective} {fs : List Formula} :
    WellFormed (.node op fs) ↔
      op.arity.accepts fs.length = true ∧ ∀ f ∈ fs, WellFormed f :=
  ⟨fun | .node hcount hall => ⟨hcount, hall⟩, fun h => .node h.1 h.2⟩

/-- A formula without a defect is well formed, and conversely. -/
theorem defect?_eq_none_iff (f : Formula) : f.defect? = none ↔ f.WellFormed := by
  induction f using induct with
  | atom name =>
    rw [defect?, wellFormed_atom_iff]
    by_cases hne : name = "" <;> simp [hne]
  | node op fs ih =>
    rw [defect?, wellFormed_node_iff]
    by_cases hcount : op.arity.accepts fs.length = true
    · simp only [hcount, if_true, true_and, List.findSome?_eq_none_iff, List.mem_map, id,
        forall_exists_index, and_imp, forall_apply_eq_imp_iff₂]
      exact ⟨fun h f hf => (ih f hf).1 (h f hf), fun h f hf => (ih f hf).2 (h f hf)⟩
    · simp [hcount]

instance (f : Formula) : Decidable f.WellFormed :=
  decidable_of_iff _ f.defect?_eq_none_iff

end Formula

end Consequence
