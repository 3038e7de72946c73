import Mathlib
import Consequence.Proofs.Lossless

/-!
# Texts with a missing operand

The canonical reader counts the operands of a group as it meets their links, but where an operand
should follow it also takes a closing parenthesis, for an atom without a name.

* `lacksOperand`: a closing parenthesis stands where an operand is due, by one pass over the tokens.
* `Formula.Spelled.wellFormed_iff`: what the canonical reader gives is well formed if its atoms have
  names.
* `Formula.scanned_of_spelled`: the pass over the tokens of a formula finds an atom without a name.
* `Formula.ofCanonical_valid_iff`: which of the texts that are read give a well-formed formula.
-/

set_option autoImplicit false

namespace Consequence

/-! ## One pass over the tokens -/

/-- What comes next inside a form: its first word or form, another operand, or a link. -/
inductive Due where
  | first
  | operand
  | link
  deriving DecidableEq, Repr

/-- What comes next behind a word. Only in the first place does `not` stand for the connective. -/
def Due.behind (name : String) : Due → Due
  | first => if sameWord "not" name then operand else link
  | operand => link
  | link => operand

/-- A closing parenthesis stands where an operand is due. A form that closes is itself an operand, so
a link comes next. -/
def lacksOperand : Due → List Token → Bool
  | _, [] => false
  | _, .opening :: text => lacksOperand .first text
  | due, .word name :: text => lacksOperand (due.behind name) text
  | due, .closing :: text => due ≠ .link || lacksOperand .link text

theorem lacksOperand_closing {due : Due} (h : due ≠ .link) {text : List Token}
    (hclose : text.head? = some .closing) : lacksOperand due text = true := by
  obtain ⟨rest, rfl⟩ := List.head?_eq_some_iff.1 hclose
  simp [lacksOperand, h]

/-- A formula can stand where this is due. In the first place a word `not` would be the connective. -/
def Due.Takes (f : Formula) (due : Due) : Prop :=
  due ≠ .link ∧ (due = .first → ∀ name, f = .atom name → sameWord "not" name = false)

theorem takes_operand (f : Formula) : Due.operand.Takes f :=
  ⟨fun h => Due.noConfusion h, fun h => Due.noConfusion h⟩

theorem Due.Takes.behind {due : Due} {name : String} (h : due.Takes (.atom name)) :
    due.behind name = .link := by
  cases due with
  | first => simp [Due.behind, h.2 rfl name rfl]
  | operand => rfl
  | link => exact absurd rfl h.1

theorem exists_append_of_forall₂ {α β : Type} {R : α → β → Prop} {xs ys : List α} {zs : List β}
    (h : List.Forall₂ R (xs ++ ys) zs) :
    ∃ us vs, zs = us ++ vs ∧ List.Forall₂ R xs us ∧ List.Forall₂ R ys vs := by
  refine ⟨zs.take xs.length, zs.drop xs.length, (List.take_append_drop _ _).symm, ?_, ?_⟩
  · simpa using List.forall₂_take xs.length h
  · simpa using List.forall₂_drop xs.length h

theorem Piece.ReadFrom.exists_word {op : Connective} {token : Token}
    (h : (Piece.connective op).ReadFrom token) : ∃ name, token = .word name := by
  cases h with
  | connective _ => exact ⟨_, rfl⟩
  | implies _ => exact ⟨_, rfl⟩

namespace Formula

variable {f g : Formula} {fs : List Formula} {op : Connective} {read rest : List Token} {due : Due}

/-- A spelled formula lacks nothing but names. -/
theorem Spelled.wellFormed_iff (h : f.Spelled) : f.WellFormed ↔ "" ∉ f.atoms := by
  induction f using induct with
  | atom name =>
    rw [wellFormed_atom_iff, atoms_atom, List.mem_singleton, eq_comm (a := "")]
    exact and_iff_left (spelled_atom_iff.1 h)
  | node op fs ih =>
    obtain ⟨hcount, hfs, -⟩ := spelled_node_iff.1 h
    rw [wellFormed_node_iff, mem_atoms_node, and_iff_right hcount]
    push Not
    exact forall₂_congr fun f hf => ih f hf (hfs f hf)

/-- The pass over the tokens of a formula, where one is due, finds an atom without a name, and goes on
behind the formula as behind an operand. -/
def Scanned (f : Formula) : Prop :=
  ∀ due read rest, List.Forall₂ Piece.ReadFrom f.pieces read → due.Takes f →
    (f ≠ .atom "" ∨ rest.head? = some Token.closing) →
    (lacksOperand due (read ++ rest) = true ↔ "" ∈ f.atoms ∨ lacksOperand .link rest = true)

theorem scanned_atom (name : String) : (atom name).Scanned := by
  intro due read rest hread htakes hends
  rw [pieces_atom] at hread
  rw [atoms_atom, List.mem_singleton]
  by_cases hname : name = ""
  · subst hname
    rw [if_pos rfl, List.forall₂_nil_left_iff] at hread
    subst hread
    have hclose : rest.head? = some .closing := by simpa using hends
    simp [lacksOperand_closing htakes.1 hclose]
  · rw [if_neg hname, List.forall₂_cons_left_iff] at hread
    obtain ⟨token, others, hsymbol, hothers, rfl⟩ := hread
    obtain rfl := List.forall₂_nil_left_iff.1 hothers
    cases hsymbol
    simp [lacksOperand, htakes.behind, Ne.symm hname]

theorem scanned_not (hg : g.Scanned) : (node .not [g]).Scanned := by
  intro due read rest hread _ _
  rw [pieces_not] at hread
  obtain ⟨_, _, hopening, hword, rfl⟩ := List.forall₂_cons_left_iff.1 hread
  obtain ⟨_, _, hnot, hoperand, rfl⟩ := List.forall₂_cons_left_iff.1 hword
  obtain ⟨inner, _, rfl, hinner, hclose⟩ := exists_append_of_forall₂ hoperand
  obtain ⟨_, _, hclosing, hend, rfl⟩ := List.forall₂_cons_left_iff.1 hclose
  obtain rfl := List.forall₂_nil_left_iff.1 hend
  cases hopening
  cases hclosing
  cases hnot with
  | @connective _ name hsame =>
    have hscan := hg .operand inner (.closing :: rest) hinner (takes_operand g) (.inr rfl)
    have hbehind : Due.first.behind name = .operand := if_pos hsame
    simpa [lacksOperand, hbehind, atoms_node] using hscan

/-- Where only the last operand may be without a name, its group closes right behind it. -/
theorem closes_of_unnamed (hnamed : ∀ g ∈ (f :: fs).dropLast, g ≠ .atom "")
    (hlinked : List.Forall₂ Piece.ReadFrom (linkedPieces op fs) read) :
    f ≠ .atom "" ∨ (read ++ .closing :: rest).head? = some .closing := by
  cases fs with
  | nil =>
    obtain rfl := List.forall₂_nil_left_iff.1 hlinked
    exact .inr rfl
  | cons g fs => exact .inl (hnamed f List.mem_cons_self)

/-- The operands of a group behind the first one, each behind its link. -/
theorem scanned_linked (hfs : ∀ f ∈ fs, f.Scanned) (hnamed : ∀ f ∈ fs.dropLast, f ≠ .atom "")
    (hread : List.Forall₂ Piece.ReadFrom (linkedPieces op fs) read) :
    lacksOperand .link (read ++ .closing :: rest) = true ↔
      (∃ f ∈ fs, "" ∈ f.atoms) ∨ lacksOperand .link rest = true := by
  induction fs generalizing read with
  | nil =>
    obtain rfl := List.forall₂_nil_left_iff.1 hread
    simp [lacksOperand]
  | cons f fs ih =>
    rw [linkedPieces, List.flatMap_cons, List.cons_append] at hread
    obtain ⟨_, _, hlink, hoperands, rfl⟩ := List.forall₂_cons_left_iff.1 hread
    obtain ⟨first, others, rfl, hfirst, hothers⟩ := exists_append_of_forall₂ hoperands
    obtain ⟨name, rfl⟩ := hlink.exists_word
    have hoperand := hfs f List.mem_cons_self .operand first (others ++ .closing :: rest) hfirst
      (takes_operand f) (closes_of_unnamed hnamed hothers)
    have hrest := ih (fun g hg => hfs g (List.mem_cons_of_mem _ hg)) (named_of_cons hnamed) hothers
    rw [hrest] at hoperand
    simpa [lacksOperand, Due.behind, or_assoc] using hoperand

theorem scanned_group (hop : op ≠ .not) (hscanned : ∀ f ∈ g :: fs, f.Scanned)
    (hnamed : ∀ f ∈ (g :: fs).dropLast, f ≠ .atom "")
    (hhead : ∀ name, g = .atom name → sameWord "not" name = false) :
    (node op (g :: fs)).Scanned := by
  intro due read rest hread _ _
  rw [pieces_group hop] at hread
  obtain ⟨_, _, hopening, hoperands, rfl⟩ := List.forall₂_cons_left_iff.1 hread
  obtain ⟨first, _, rfl, hfirst, hbehind⟩ := exists_append_of_forall₂ hoperands
  obtain ⟨others, _, rfl, hothers, hclose⟩ := exists_append_of_forall₂ hbehind
  obtain ⟨_, _, hclosing, hend, rfl⟩ := List.forall₂_cons_left_iff.1 hclose
  obtain rfl := List.forall₂_nil_left_iff.1 hend
  cases hopening
  cases hclosing
  have hoperand := hscanned g List.mem_cons_self .first first (others ++ .closing :: rest) hfirst
    ⟨fun h => Due.noConfusion h, fun _ => hhead⟩ (closes_of_unnamed hnamed hothers)
  rw [scanned_linked (fun f hf => hscanned f (List.mem_cons_of_mem _ hf)) (named_of_cons hnamed)
    hothers] at hoperand
  simpa [lacksOperand, atoms_node, or_assoc] using hoperand

theorem scanned_of_spelled (hspelled : f.Spelled) (hback : f.ReadsBack) : f.Scanned := by
  induction f using induct with
  | atom name => exact scanned_atom name
  | node op fs ih =>
    obtain ⟨-, hfs, hnamed⟩ := spelled_node_iff.1 hspelled
    obtain ⟨hhead, hbacks⟩ := readsBack_node_iff.1 hback
    have hscanned : ∀ f ∈ fs, f.Scanned := fun f hf => ih f hf (hfs f hf) (hbacks f hf)
    rcases hspelled.not_or_group with ⟨rfl, g, rfl⟩ | ⟨hop, g, fs, rfl⟩
    · exact scanned_not (hscanned g List.mem_cons_self)
    · exact scanned_group hop hscanned hnamed fun name hname => hhead hop name (by rw [hname]; rfl)

variable {text : String} {limits : Limits}

/-- **What is read is well formed if no operand is missing**: a text that the canonical reader accepts
gives a formula whose operand counts are accepted and whose atoms are runs of symbol characters, where
only a last operand may be without a name. It is well formed just if no closing parenthesis of the text
stands where an operand is due. -/
theorem ofCanonical_valid_iff (h : ofCanonical text limits = .ok f) :
    f.Spelled ∧ (f.defect? = none ↔ lacksOperand .operand (tokens text.toList) = false) := by
  have hshown := shown_ofCanonical h
  obtain ⟨after, hread⟩ := ofCanonical_eq_ok_iff.1 h
  refine ⟨hshown.spelled, ?_⟩
  have hscan := scanned_of_spelled hshown.spelled hshown.readsBack .operand (tokens text.toList) []
    (Reader.readFrom_of_canonical hread) (takes_operand f) (.inl (Reader.ne_empty_of_canonical hread))
  rw [List.append_nil] at hscan
  rw [defect?_eq_none_iff, hshown.spelled.wellFormed_iff, ← Bool.not_eq_true, hscan]
  simp [lacksOperand]

/-- Symbols named like connectives are operands where one is due. -/
def namedLikeLinks : Formula :=
  .node .iff [.node .not [.atom "p"], .node .or [.atom "and", .atom "and"]]

theorem ofCanonical_valid_iff_namedLikeLinks :
    ofCanonical "((NOT p) iff (and OR and))" {} = .ok namedLikeLinks ∧
      lacksOperand .operand (tokens "((NOT p) iff (and OR and))".toList) = false ∧
      namedLikeLinks.Spelled ∧ namedLikeLinks.defect? = none := by
  have hread : ofCanonical "((NOT p) iff (and OR and))" {} = .ok namedLikeLinks := by cbv
  have htext : lacksOperand .operand (tokens "((NOT p) iff (and OR and))".toList) = false := by cbv
  obtain ⟨hspelled, hvalid⟩ := ofCanonical_valid_iff hread
  exact ⟨hread, htext, hspelled, hvalid.2 htext⟩

/-- A group that closes right behind a link is read with an operand that has no name. -/
theorem not_forall_valid_ofCanonical :
    ¬ ∀ (text : String) (limits : Limits) (f : Formula),
      ofCanonical text limits = .ok f → f.defect? = none := by
  intro hall
  have hread : ofCanonical "(a and )" {} = .ok (.node .and [.atom "a", .atom ""]) := by cbv
  have hdefect : (node .and [.atom "a", .atom ""]).defect? = some .emptyName := by cbv
  rw [hall _ _ _ hread] at hdefect
  cases hdefect

end Formula

end Consequence
