import Mathlib
import Consequence.Proofs.Counting
import Consequence.Proofs.Denotation

/-!
# First defects

A formula breaks the grammar at one of its nodes, by its name or by its operand count. Which one is
reported does not depend on how the formula is walked through: it is the first one when the nodes are
listed, each before its operands. Of several clauses the first one with a defect is reported.

* `Formula.nodes`, `Formula.Breaks`: the nodes of a formula in order, and what is wrong with one of them.
* `Formula.defect?_eq_findSome?`: the defect of a formula is the first one in this list.
* `Formula.defect?_eq_none_iff_nodes`, `Formula.defect?_eq_some_iff`: so no node is wrong if there is none,
  and else it is that of the first node that is.
* `KnowledgeBase.validate_first_defect`: formulas and bases.
-/

set_option autoImplicit false

namespace Consequence

namespace Connective

/-- The connective can have so many operands. -/
def Takes : Connective → Nat → Prop
  | not, count => count = 1
  | implies, count | iff, count => count = 2
  | and, count | or, count | xor, count => 1 ≤ count

theorem accepts_iff_takes {op : Connective} {count : Nat} :
    op.arity.accepts count = true ↔ op.Takes count := by
  cases op <;> simp [arity, Arity.accepts, Takes]

end Connective

namespace Formula

/-- The formula and the formulas below it, each in front of its operands, operands from left to
right. -/
def nodes : Formula → List Formula
  | atom name => [atom name]
  | node op fs => node op fs :: fs.flatMap fun f => f.nodes

/-- What is wrong with a formula itself, whatever is wrong with its operands. -/
inductive Breaks : Formula → Violation → Prop where
  | emptyName : Breaks (.atom "") .emptyName
  | illegalName {name : String} {c : Char} :
      c ∈ name.toList → isWordChar c = false → Breaks (.atom name) (.illegalName name)
  | operandCount {op : Connective} {fs : List Formula} :
      ¬ op.Takes fs.length → Breaks (.node op fs) (.operandCount op fs.length)

/-- The violation of a formula itself. -/
def ownDefect? : Formula → Option Violation
  | atom name => (atom name).defect?
  | node op fs => if op.arity.accepts fs.length then none else some (.operandCount op fs.length)

variable {f g : Formula} {fs gs : List Formula} {violation : Violation}

theorem nodes_atom (name : String) : (atom name).nodes = [atom name] := by
  rw [nodes]

theorem nodes_node (op : Connective) (fs : List Formula) :
    (node op fs).nodes = node op fs :: fs.flatMap nodes := by
  rw [nodes]

/-! ## One node -/

theorem defect?_atom_eq_some_iff {name : String} :
    (atom name).defect? = some violation ↔ (atom name).Breaks violation := by
  rw [defect?]
  by_cases hempty : name = ""
  · subst hempty
    simp only [if_true, Option.some.injEq]
    constructor
    · rintro rfl
      exact .emptyName
    · rintro (_ | ⟨hc, -⟩)
      · rfl
      · cases hc
  · rw [if_neg hempty]
    constructor
    · intro h
      split at h
      · cases h
      · next hall =>
        cases h
        obtain ⟨c, hc, hword⟩ := by simpa using hall
        exact .illegalName hc hword
    · rintro (_ | ⟨hc, hword⟩)
      · exact absurd rfl hempty
      · rw [if_neg fun hall => ?_]
        rw [List.all_eq_true.1 hall _ hc] at hword
        cases hword

theorem ownDefect?_eq_some_iff : f.ownDefect? = some violation ↔ f.Breaks violation := by
  cases f with
  | atom name => exact defect?_atom_eq_some_iff
  | node op fs =>
    rw [ownDefect?]
    by_cases htakes : op.arity.accepts fs.length = true
    · rw [if_pos htakes]
      constructor
      · intro h
        cases h
      · intro h
        cases h with
        | operandCount hnot => exact absurd (Connective.accepts_iff_takes.1 htakes) hnot
    · rw [if_neg htakes]
      constructor
      · rintro ⟨⟩
        exact .operandCount (mt Connective.accepts_iff_takes.2 htakes)
      · intro h
        cases h with
        | operandCount => rfl

theorem ownDefect?_eq_none_iff : f.ownDefect? = none ↔ ∀ violation, ¬ f.Breaks violation := by
  simp only [← ownDefect?_eq_some_iff]
  exact Option.eq_none_iff_forall_ne_some

theorem forall_not_breaks_atom_iff {name : String} :
    (∀ violation, ¬ (atom name).Breaks violation) ↔ IsSymbol name := by
  rw [← ownDefect?_eq_none_iff, ownDefect?, defect?_eq_none_iff, wellFormed_atom_iff, IsSymbol]

theorem forall_not_breaks_node_iff {op : Connective} :
    (∀ violation, ¬ (node op fs).Breaks violation) ↔ op.Takes fs.length := by
  rw [← ownDefect?_eq_none_iff, ownDefect?, ← Connective.accepts_iff_takes]
  simp

/-! ## All nodes -/

/-- Looking into the operands one after the other is looking through the list of all nodes. -/
theorem defect?_eq_findSome? (f : Formula) : f.defect? = f.nodes.findSome? ownDefect? := by
  induction f using induct with
  | atom name =>
    rw [nodes_atom, List.findSome?_singleton]
    rfl
  | node op fs ih =>
    have hoperands : (fs.map defect?).findSome? id = (fs.flatMap nodes).findSome? ownDefect? := by
      induction fs with
      | nil => rfl
      | cons f fs ihs =>
        rw [List.forall_mem_cons] at ih
        rw [List.flatMap_cons, List.findSome?_append, ← ihs ih.2, ← ih.1, List.map_cons,
          List.findSome?_cons]
        cases f.defect? <;> rfl
    rw [defect?, nodes_node, List.findSome?_cons, ownDefect?, ← hoperands]
    by_cases htakes : op.arity.accepts fs.length = true
    · rw [if_pos htakes, if_pos htakes]
    · rw [if_neg htakes, if_neg htakes]

theorem defect?_eq_none_iff_nodes :
    f.defect? = none ↔
      (∀ name, atom name ∈ f.nodes → IsSymbol name) ∧
        ∀ op fs, node op fs ∈ f.nodes → op.Takes fs.length := by
  simp only [defect?_eq_findSome?, List.findSome?_eq_none_iff, ownDefect?_eq_none_iff]
  constructor
  · intro h
    exact ⟨fun name hmem => forall_not_breaks_atom_iff.1 (h _ hmem),
      fun op fs hmem => forall_not_breaks_node_iff.1 (h _ hmem)⟩
  · rintro ⟨hatoms, hnodes⟩ g hmem
    cases g with
    | atom name => exact forall_not_breaks_atom_iff.2 (hatoms name hmem)
    | node op fs => exact forall_not_breaks_node_iff.2 (hnodes op fs hmem)

theorem defect?_eq_some_iff :
    f.defect? = some violation ↔
      ∃ (before : List Formula) (g : Formula) (after : List Formula), f.nodes = before ++ g :: after ∧
        (∀ h ∈ before, ∀ other, ¬ h.Breaks other) ∧ g.Breaks violation := by
  simp only [defect?_eq_findSome?, List.findSome?_eq_some_iff, ownDefect?_eq_none_iff,
    ownDefect?_eq_some_iff, and_comm]

end Formula

/-! ## Bases -/

namespace KnowledgeBase

variable {kb : KnowledgeBase} {e : Error}

theorem validate_eq_error_iff_rejection? : kb.validate = .error e ↔ kb.rejection? = some e := by
  unfold validate
  split
  · next h => simp [h]
  · next h => simp [h]

theorem exists_validate_eq_ok_iff :
    (∃ base, kb.validate = .ok base ∧ base.toKnowledgeBase = kb) ↔
      ∀ c ∈ kb.clauses, c.formula.defect? = none := by
  simp only [Formula.defect?_eq_none_iff]
  constructor
  · rintro ⟨base, -, rfl⟩
    exact base.wellFormed
  · exact fun h => ⟨⟨kb, h⟩, validate_eq_ok_iff.2 rfl, rfl⟩

/-- **Validation reports the first defect**: a formula has none just if every name in it is a word and
every connective has an operand count that it takes; else it is the violation of the first of its nodes
that breaks the grammar by itself, each node being listed before its operands. A base is accepted just if
no clause has a defect; else its first clause with one is reported, with its span and the id of its
source. -/
theorem validate_first_defect (f : Formula) (kb : KnowledgeBase) :
    (f.defect? = none ↔
      (∀ name, .atom name ∈ f.nodes → IsSymbol name) ∧
        ∀ op fs, .node op fs ∈ f.nodes → op.Takes fs.length) ∧
    (∀ violation, f.defect? = some violation ↔
      ∃ (before : List Formula) (g : Formula) (after : List Formula), f.nodes = before ++ g :: after ∧
        (∀ h ∈ before, ∀ other, ¬ h.Breaks other) ∧ g.Breaks violation) ∧
    ((∃ base, kb.validate = .ok base ∧ base.toKnowledgeBase = kb) ↔
      ∀ c ∈ kb.clauses, c.formula.defect? = none) ∧
    ∀ e, kb.validate = .error e ↔
      ∃ (before : List Clause) (c : Clause) (after : List Clause) (violation : Violation),
        kb.clauses = before ++ c :: after ∧
        (∀ b ∈ before, b.formula.defect? = none) ∧ c.formula.defect? = some violation ∧
        e = .located ⟨.rejectedClause violation c.formula, c.span,
          ⟨c.sourceId, kb.sourceText c.sourceId⟩⟩ := by
  refine ⟨Formula.defect?_eq_none_iff_nodes, fun _ => Formula.defect?_eq_some_iff,
    exists_validate_eq_ok_iff, fun e => ?_⟩
  rw [validate_eq_error_iff_rejection?, rejection?, List.findSome?_eq_some_iff]
  simp only [Clause.rejection?, Option.map_eq_some_iff, Option.map_eq_none_iff]
  constructor
  · rintro ⟨before, c, after, hclauses, ⟨violation, hdefect, rfl⟩, hbefore⟩
    exact ⟨before, c, after, violation, hclauses, hbefore, hdefect, rfl⟩
  · rintro ⟨before, c, after, violation, hclauses, hbefore, hdefect, rfl⟩
    exact ⟨before, c, after, hclauses, ⟨violation, hdefect, rfl⟩, hbefore⟩

end KnowledgeBase

end Consequence
