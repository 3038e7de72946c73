import Consequence.Proofs.CanonicalSteps
import Consequence.Proofs.NormalForm

/-!
# What the canonical reader gives

The canonical reader checks operand counts as it goes, makes a conjunction of a group of one operand
and never takes a word `not` for the first operand of a group. So whatever the text is, the formula
that it gives is one that the canonical syntax can show.

* `Formula.Shown`: the formulas that the canonical syntax can show within a depth.
* `Reader.Started`: what holds of a group while its links are read, and `Reader.Started.push`,
  `Reader.Started.shown`: how it goes on and how it ends.
* `Reader.shown_canonical`: every formula that is read is shown within the limit.
-/

set_option autoImplicit false

namespace Consequence

namespace Formula

/-- The canonical syntax can show the formula as it is with `room` nested forms. -/
structure Shown (room : Nat) (f : Formula) : Prop where
  spelled : f.Spelled
  readsBack : f.ReadsBack
  norm_eq : f.norm = f
  depth_le : f.depth ≤ room

theorem shown_atom {room : Nat} {name : String} (h : ∀ c ∈ name.toList, isWordChar c = true) :
    Shown room (.atom name) where
  spelled := .atom h
  readsBack := .atom
  norm_eq := norm_atom name
  depth_le := by simp [depth]

theorem shown_node {room : Nat} {op : Connective} {fs : List Formula}
    (hcount : op.arity.accepts fs.length = true) (hregroup : op.regroup fs.length = op)
    (hinit : ∀ f ∈ fs.dropLast, f ≠ .atom "")
    (hhead : op ≠ .not → ∀ name, fs.head? = some (.atom name) → sameWord "not" name = false)
    (hall : ∀ f ∈ fs, Shown room f) : Shown (room + 1) (.node op fs) where
  spelled := .node hcount (fun f hf => (hall f hf).spelled) hinit
  readsBack := .node hhead fun f hf => (hall f hf).readsBack
  norm_eq := by
    rw [norm_node, hregroup, List.map_congr_left fun f hf => (hall f hf).norm_eq, List.map_id']
  depth_le := depth_node_le_iff.2 fun f hf => (hall f hf).depth_le

end Formula

namespace Reader

open Formula (Shown shown_atom shown_node)

variable {caret after opened : Caret} {form : Reader Formula} {f g : Formula} {op : Connective}
  {op? : Option Connective} {done : List Formula} {limit rounds room : Nat} {ahead : List Char}

/-! ## Groups -/

/-- The operands `done` of a group were read, up to the text that is ahead. -/
structure Started (room : Nat) (op? : Option Connective) (done : List Formula)
    (ahead : List Char) : Prop where
  shown : ∀ f ∈ done, Shown room f
  head : ∀ name, done.head? = some (.atom name) → sameWord "not" name = false
  /-- An atom without a name can only be the last operand. -/
  named : ∀ f ∈ done.dropLast, f ≠ .atom ""
  closes : done.getLast? = some (.atom "") → ahead.head? = some ')'
  single : op? = none → done.length = 1
  joined : ∀ op, op? = some op →
    op ≠ .not ∧ 1 < done.length ∧ op.arity.accepts done.length = true

theorem started_single (hshown : Shown room f)
    (hhead : ∀ name, f = .atom name → sameWord "not" name = false)
    (hcloses : f = .atom "" → ahead.head? = some ')') : Started room none [f] ahead where
  shown := by simpa using hshown
  head := by simpa using hhead
  named := by simp
  closes := by simpa using hcloses
  single _ := rfl
  joined := by simp

theorem Started.getLast?_ne {c : Char} (h : Started room op? done caret.ahead)
    (hc : (caret.skip isBlank).ahead.head? = some c) (hne : c ≠ ')') :
    done.getLast? ≠ some (.atom "") := by
  intro hlast
  have hhead := h.closes hlast
  rw [Caret.skip_eq_self _ hhead (by decide), hhead] at hc
  cases hc
  exact hne rfl

/-- A link and an operand go on with a group. -/
theorem Started.push {rest : List Char} (h : Started room op? done rest) (hne : done ≠ [])
    (hlast : done.getLast? ≠ some (.atom "")) (hop : op ≠ .not)
    (hcount : op.arity.accepts (done.length + 1) = true) (hg : Shown room g)
    (hcloses : g = .atom "" → ahead.head? = some ')') :
    Started room (some op) (done ++ [g]) ahead where
  shown := by
    simpa [or_imp, forall_and] using ⟨h.shown, hg⟩
  head := by
    obtain ⟨f, fs, rfl⟩ := List.exists_cons_of_ne_nil hne
    exact h.head
  named := by
    rw [List.dropLast_concat, ← List.dropLast_concat_getLast hne]
    intro f hf
    rcases List.mem_append.1 hf with hf | hf
    · exact h.named f hf
    · rw [List.mem_singleton.1 hf]
      rintro hempty
      exact hlast (by rw [List.getLast?_eq_some_getLast hne, hempty])
  closes := by simpa using hcloses
  single := by simp
  joined other hother := by
    cases hother
    have hpos := List.length_pos_iff.2 hne
    simpa using ⟨hop, hpos, hcount⟩

theorem Started.shown_node (h : Started room op? done ahead) :
    Shown (room + 1) (.node (op?.getD .and) done) := by
  cases op? with
  | none =>
    have hone := h.single rfl
    refine Formula.shown_node ?_ ?_ h.named (fun _ => h.head) h.shown
    · rw [hone]
      rfl
    · rw [hone]
      rfl
  | some op =>
    obtain ⟨_, hmany, hcount⟩ := h.joined op rfl
    refine Formula.shown_node hcount ?_ h.named (fun _ => h.head) h.shown
    exact Connective.regroup_of_ne_one (Nat.ne_of_gt hmany)

/-! ## Formulas -/

/-- Whatever the reader gives is a form that is shown with `room` nested forms. -/
def GivesForms (form : Reader Formula) (room : Nat) : Prop :=
  ∀ caret f after, form caret = .ok f after → Shown room f ∧ f.atom? = none

/-- A formula is shown if the forms are. It has no name only in front of a closing parenthesis. -/
theorem shown_term (hform : GivesForms form room) (h : term form caret = .ok f after) :
    Shown room f ∧ (f = .atom "" → after.ahead.head? = some ')') := by
  rcases term_eq_ok_iff.1 h with ⟨_, hf⟩ | ⟨c, name, hc, _, hword, rfl⟩
  · obtain ⟨hshown, hnode⟩ := hform _ _ _ hf
    exact ⟨hshown, fun hatom => by simp [hatom, Formula.atom?] at hnode⟩
  · obtain ⟨hall, hcloses⟩ := word_spelled hword hc
    exact ⟨shown_atom hall, fun hatom => hcloses (Formula.atom.inj hatom)⟩

theorem shown_links (hform : GivesForms form room) {done : Array Formula} (hne : done.toList ≠ [])
    (hstarted : Started room op? done.toList caret.ahead)
    (h : links form opened rounds op? done caret = .ok f after) :
    Shown (room + 1) f ∧ f.atom? = none := by
  induction rounds generalizing op? done caret with
  | zero => exact absurd h links_zero_ne_ok
  | succ rounds ih =>
    rcases links_succ_eq_ok_iff.1 h with
      ⟨_, _, rfl⟩ | ⟨c, op, linked, g, joined, hc, hclose, hlink, hterm, hlinks⟩
    · -- the group closes
      exact ⟨hstarted.shown_node, rfl⟩
    · -- a link and an operand come next, so the last operand has a name
      obtain ⟨name, _, hop, _, hcount⟩ := link_eq_ok_iff.1 hlink
      obtain ⟨hg, hcloses⟩ := shown_term hform hterm
      refine ih (by simp) ?_ hlinks
      rw [Array.toList_push]
      exact hstarted.push hne (hstarted.getLast?_ne hc hclose) (Connective.ne_not_of_ofLink? hop)
        hcount hg hcloses

theorem shown_grouped : GivesForms (grouped limit rounds room) room := by
  induction room with
  | zero => exact fun _ _ _ h => absurd h grouped_zero_ne_ok
  | succ room ih =>
    intro caret f after h
    rcases grouped_succ_eq_ok_iff.1 h with ⟨_, g, first, hg, hlinks⟩ |
      ⟨c, name, first, hc, _, hword, ⟨_, g, last, hterm, _, rfl⟩ | ⟨hnot, hlinks⟩⟩
    · -- the first operand is a form
      obtain ⟨hshown, hnode⟩ := ih _ _ _ hg
      refine shown_links ih (by simp) (started_single hshown ?_ ?_) hlinks
      · rintro name rfl
        cases hnode
      · rintro rfl
        cases hnode
    · obtain ⟨hshown, _⟩ := shown_term ih hterm
      exact ⟨shown_node rfl rfl (by simp) (fun hne => absurd rfl hne) (by simpa using hshown), rfl⟩
    · -- the first operand is a word, and not `not`
      obtain ⟨hall, hcloses⟩ := word_spelled hword hc
      refine shown_links ih (by simp) (started_single (shown_atom hall) ?_ ?_) hlinks
      · intro other hother
        rwa [← Formula.atom.inj hother]
      · exact fun hatom => hcloses (Formula.atom.inj hatom)

theorem shown_canonical (h : canonical limit caret = .ok f after) : Shown limit f := by
  obtain ⟨last, hterm, _, _⟩ := canonical_eq_ok_iff.1 h
  exact (shown_term shown_grouped hterm).1

end Reader

end Consequence
