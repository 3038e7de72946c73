import Consequence.Formula.Forms
import Consequence.Proofs.Characters
import Consequence.Proofs.Truth

/-!
# Formulas up to their canonical form

The canonical form of a connective with one operand does not show which connective it is, unless it
is `not`. `Formula.norm` makes all these conjunctions.

* `Formula.truth_norm`, `Formula.depth_norm`, `Formula.readsBack_norm_iff`: this changes neither the
  truth value nor the depth, nor which word a group starts with.
* `Formula.canonicalForm_not`, `Formula.canonicalForm_group`: the canonical form from left to right.
-/

set_option autoImplicit false

namespace Consequence

/-! ## The formulas that the canonical reader can give -/

namespace Connective

/-- The connective that a group of `count` operands reads back as. -/
def regroup (op : Connective) (count : Nat) : Connective :=
  match op with
  | and | or | xor => if count = 1 then and else op
  | _ => op

@[simp] theorem regroup_not (count : Nat) : regroup not count = not := rfl

theorem regroup_eq_not_iff {op : Connective} {count : Nat} : op.regroup count = not ↔ op = not := by
  cases op <;> simp [regroup] <;> split <;> simp

theorem regroup_of_ne_one {op : Connective} {count : Nat} (h : count ≠ 1) :
    op.regroup count = op := by
  cases op <;> simp [regroup, h]

/-- With one operand only negation and the connectives of exactly two operands stand out. -/
theorem regroup_one {op : Connective} (hnot : op ≠ not) (harity : op.arity.accepts 1 = true) :
    op.regroup 1 = and := by
  cases op <;> simp_all [regroup, arity, Arity.accepts]

theorem reading_regroup (op : Connective) (bs : List Bool) :
    (op.regroup bs.length).reading bs = op.reading bs := by
  by_cases h : bs.length = 1
  · obtain ⟨b, rfl⟩ := List.length_eq_one_iff.1 h
    cases op <;> cases b <;> rfl
  · rw [regroup_of_ne_one h]

end Connective

namespace Formula

/-- Every conjunction and every inclusive or exclusive disjunction of one operand becomes a
conjunction. -/
def norm : Formula → Formula
  | atom name => atom name
  | node op fs => node (op.regroup fs.length) (fs.map fun f => f.norm)

/-- No connective but `not` has an atom spelled like `not` for its first operand. -/
inductive ReadsBack : Formula → Prop where
  | atom {name : String} : ReadsBack (.atom name)
  | node {op : Connective} {fs : List Formula} :
      (op ≠ .not → ∀ name, fs.head? = some (.atom name) → sameWord "not" name = false) →
      (∀ f ∈ fs, ReadsBack f) → ReadsBack (.node op fs)

/-- Every atom is a run of symbol characters, which may be empty at the end of a form, and every
operand count is accepted. -/
inductive Spelled : Formula → Prop where
  | atom {name : String} : (∀ c ∈ name.toList, isWordChar c = true) → Spelled (.atom name)
  | node {op : Connective} {fs : List Formula} :
      op.arity.accepts fs.length = true → (∀ f ∈ fs, Spelled f) →
      (∀ f ∈ fs.dropLast, f ≠ .atom "") → Spelled (.node op fs)

theorem readsBack_node_iff {op : Connective} {fs : List Formula} :
    ReadsBack (.node op fs) ↔
      (op ≠ .not → ∀ name, fs.head? = some (.atom name) → sameWord "not" name = false) ∧
        ∀ f ∈ fs, ReadsBack f :=
  ⟨fun | .node hhead hall => ⟨hhead, hall⟩, fun h => .node h.1 h.2⟩

theorem spelled_atom_iff {name : String} :
    Spelled (.atom name) ↔ ∀ c ∈ name.toList, isWordChar c = true :=
  ⟨fun | .atom hall => hall, .atom⟩

theorem spelled_node_iff {op : Connective} {fs : List Formula} :
    Spelled (.node op fs) ↔ op.arity.accepts fs.length = true ∧ (∀ f ∈ fs, Spelled f) ∧
      ∀ f ∈ fs.dropLast, f ≠ .atom "" :=
  ⟨fun | .node hcount hall hlast => ⟨hcount, hall, hlast⟩, fun h => .node h.1 h.2.1 h.2.2⟩

/-- A connective is a negation of one operand or a group of some operands. -/
theorem Spelled.not_or_group {op : Connective} {fs : List Formula} (h : Spelled (.node op fs)) :
    (op = .not ∧ ∃ f, fs = [f]) ∨ (op ≠ .not ∧ ∃ f gs, fs = f :: gs) := by
  obtain ⟨hcount, -, -⟩ := spelled_node_iff.1 h
  by_cases hop : op = .not
  · subst hop
    exact .inl ⟨rfl, List.length_eq_one_iff.1 (beq_iff_eq.1 hcount)⟩
  · refine .inr ⟨hop, List.exists_cons_of_ne_nil ?_⟩
    rintro rfl
    cases op <;> cases hcount

theorem WellFormed.ne_empty {f : Formula} (h : f.WellFormed) : f ≠ .atom "" := by
  rintro rfl
  exact (wellFormed_atom_iff.1 h).1 rfl

theorem WellFormed.spelled {f : Formula} (h : f.WellFormed) : f.Spelled := by
  induction h with
  | atom _ hall => exact .atom hall
  | node hcount hall ih =>
    exact .node hcount ih fun f hf => (hall f ((List.dropLast_sublist _).subset hf)).ne_empty

/-! ## Normal forms -/

theorem norm_atom (name : String) : (atom name).norm = atom name := by
  rw [norm]

theorem norm_node (op : Connective) (fs : List Formula) :
    (node op fs).norm = node (op.regroup fs.length) (fs.map norm) := by
  rw [norm]

theorem norm_eq_atom_iff {f : Formula} {name : String} : f.norm = atom name ↔ f = atom name := by
  cases f with
  | atom other => rw [norm_atom]
  | node op fs => simp [norm_node]

theorem truth_norm (v : Valuation) (f : Formula) : f.norm.truth v = f.truth v := by
  induction f using induct with
  | atom name => rw [norm_atom]
  | node op fs ih =>
    have hfs : (fs.map norm).map (·.truth v) = fs.map (·.truth v) := by
      rw [List.map_map]
      exact List.map_congr_left ih
    have hreading := op.reading_regroup (fs.map (·.truth v))
    rw [List.length_map] at hreading
    rw [norm_node, truth_node, truth_node, hfs, hreading]

theorem depth_node (op : Connective) (fs : List Formula) :
    (node op fs).depth = (fs.map depth).foldr max 0 + 1 := by
  rw [depth]

/-- A connective is one deeper than its deepest operand. -/
theorem depth_node_le_iff {op : Connective} {fs : List Formula} {n : Nat} :
    (node op fs).depth ≤ n + 1 ↔ ∀ f ∈ fs, f.depth ≤ n := by
  rw [depth_node, Nat.add_le_add_iff_right]
  induction fs with
  | nil => simp
  | cons f fs ih => rw [List.map_cons, List.foldr_cons, Nat.max_le, ih, List.forall_mem_cons]

/-- A connective leaves room for its operands. -/
theorem room_of_depth_node_le {op : Connective} {fs : List Formula} {n : Nat}
    (h : (node op fs).depth ≤ n) : ∃ m, n = m + 1 ∧ ∀ f ∈ fs, f.depth ≤ m := by
  cases n with
  | zero =>
    rw [depth_node] at h
    omega
  | succ m => exact ⟨m, rfl, depth_node_le_iff.1 h⟩

theorem depth_norm (f : Formula) : f.norm.depth = f.depth := by
  induction f using induct with
  | atom name => rw [norm_atom]
  | node op fs ih =>
    have hfs : (fs.map norm).map depth = fs.map depth := by
      rw [List.map_map]
      exact List.map_congr_left ih
    rw [norm_node, depth_node, depth_node, hfs]

theorem readsBack_norm_iff (f : Formula) : f.norm.ReadsBack ↔ f.ReadsBack := by
  induction f using induct with
  | atom name => rw [norm_atom]
  | node op fs ih =>
    rw [norm_node, readsBack_node_iff, readsBack_node_iff, Ne, Connective.regroup_eq_not_iff]
    have hhead (name : String) :
        (fs.map norm).head? = some (.atom name) ↔ fs.head? = some (.atom name) := by
      cases fs <;> simp [norm_eq_atom_iff]
    simp only [hhead, List.mem_map, forall_exists_index, and_imp, forall_apply_eq_imp_iff₂]
    exact and_congr_right fun _ => forall₂_congr ih

/-! ## The canonical form from left to right -/

theorem canonicalForm_atom (name : String) : (atom name).canonicalForm = name.toList := by
  rw [canonicalForm]

theorem canonicalForm_not (f : Formula) :
    (node .not [f]).canonicalForm =
      '(' :: (Connective.not.linkWord.toList ++ ' ' :: (f.canonicalForm ++ [')'])) := by
  rw [canonicalForm]
  simp

/-- The operands of a group behind the first one, each behind its link. -/
def linked (op : Connective) (fs : List Formula) : List Char :=
  fs.flatMap fun f => ' ' :: (op.linkWord.toList ++ ' ' :: f.canonicalForm)

@[simp] theorem linked_nil (op : Connective) : linked op [] = [] := rfl

theorem linked_cons (op : Connective) (f : Formula) (fs : List Formula) :
    linked op (f :: fs) =
      ' ' :: (op.linkWord.toList ++ ' ' :: (f.canonicalForm ++ linked op fs)) := by
  simp [linked]

theorem endsWord_linked (op : Connective) (fs : List Formula) (rest : List Char) :
    EndsWord (linked op fs ++ [')'] ++ rest) := by
  cases fs with
  | nil => exact endsWord_close rest
  | cons f fs =>
    rw [linked_cons]
    exact endsWord_blank (by decide) _

theorem intercalate_cons {α : Type} (sep x : List α) (xs : List (List α)) :
    sep.intercalate (x :: xs) = x ++ xs.flatMap (sep ++ ·) := by
  induction xs generalizing x with
  | nil => simp
  | cons y xs ih =>
    rw [List.intercalate_cons_cons, ih, List.flatMap_cons, List.append_assoc, List.append_assoc]

theorem canonicalForm_group {op : Connective} (hop : op ≠ .not) (f : Formula) (fs : List Formula) :
    (node op (f :: fs)).canonicalForm = '(' :: (f.canonicalForm ++ (linked op fs ++ [')'])) := by
  rw [canonicalForm]
  simp only [if_neg hop, List.map_cons, intercalate_cons, List.flatMap_map, linked]
  simp

theorem canonicalForm_node (op : Connective) (fs : List Formula) :
    ∃ text, (node op fs).canonicalForm = '(' :: text := by
  rw [canonicalForm]
  split
  · exact ⟨_, rfl⟩
  · exact ⟨_, rfl⟩

end Formula

end Consequence
