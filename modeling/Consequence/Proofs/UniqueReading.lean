import Consequence.Proofs.NormalForm

/-!
# Canonical forms are read in one way

Symbols may be spelled like connectives, so where a group has its links is decided from left to
right. A canonical form in front of anything that ends a word determines the normal form of its
formula, and where it ends.

* `Formula.linked_append_inj`: the operands of a group behind the first one.
* `Formula.canonicalForm_append_inj`: every formula, by induction on it.
* `Formula.canonicalText_eq_iff`: two formulas have the same canonical form just if they have the
  same normal form.
-/

set_option autoImplicit false

namespace Consequence

theorem Connective.linkWord_injective {op other : Connective}
    (h : op.linkWord.toList = other.linkWord.toList) : op = other := by
  have hword := String.toList_injective h
  cases op <;> cases other <;> first | rfl | exact absurd hword (by decide)

namespace Formula

variable {e f g : Formula} {fs gs : List Formula} {op other : Connective}
  {name : String} {rest next : List Char}

/-- The canonical form shows the normal form and where it ends. -/
def UniquelyRead (e : Formula) : Prop :=
  ∀ (f : Formula) (rest next : List Char), f.Spelled → EndsWord rest → EndsWord next →
    e.canonicalForm ++ rest = f.canonicalForm ++ next → e.norm = f.norm ∧ rest = next

theorem atom_append_ne (hname : ∀ c ∈ name.toList, isWordChar c = true) (hrest : EndsWord rest) :
    (atom name).canonicalForm ++ rest ≠ (node op fs).canonicalForm ++ next := by
  obtain ⟨text, htext⟩ := canonicalForm_node op fs
  rw [htext, canonicalForm_atom]
  intro h
  cases hlist : name.toList with
  | nil =>
    rw [hlist, List.nil_append] at h
    have hopen := hrest '(' (by rw [h]; rfl)
    revert hopen
    decide
  | cons c cs =>
    rw [hlist, List.cons_append, List.cons_append, List.cons.injEq] at h
    have hopen := hname '(' (by rw [hlist, h.1]; exact List.mem_cons_self)
    revert hopen
    decide

/-- A formula that starts with a word in front of a blank is that word. -/
theorem eq_atom_of_append {word : List Char} (hf : f.Spelled)
    (hword : ∀ c ∈ word, isWordChar c = true) (hrest : EndsWord rest) (hnext : EndsWord next)
    (h : f.canonicalForm ++ rest = word ++ next) : f = atom (String.ofList word) ∧ rest = next := by
  cases f with
  | atom name =>
    rw [canonicalForm_atom] at h
    obtain ⟨rfl, hsame⟩ := word_append_inj (spelled_atom_iff.1 hf) hword hrest hnext h
    exact ⟨by rw [String.ofList_toList], hsame⟩
  | node op fs =>
    refine absurd h.symm ?_
    have hne : (atom (String.ofList word)).canonicalForm ++ next ≠
        (node op fs).canonicalForm ++ rest := atom_append_ne (by simpa using hword) hnext
    simpa [canonicalForm_atom] using hne

/-- A negation is told from a group whose first operand is spelled `not`: behind the word comes an
operand, and not a link. -/
theorem not_append_ne_group (hop : op ≠ .not) (he : e.Spelled) (hf : f.Spelled) :
    (node .not [e]).canonicalForm ++ rest ≠ (node op (f :: fs)).canonicalForm ++ next := by
  rw [canonicalForm_not, canonicalForm_group hop]
  intro h
  have hfirst : f.canonicalForm ++ (linked op fs ++ [')'] ++ next) =
      Connective.not.linkWord.toList ++ ' ' :: (e.canonicalForm ++ ([')'] ++ rest)) := by
    simpa using h.symm
  obtain ⟨-, hlinks⟩ := eq_atom_of_append hf Connective.not.isWordChar_linkWord
    (endsWord_linked op fs next) (endsWord_blank (by decide) _) hfirst
  cases fs with
  | nil => simp at hlinks
  | cons g gs =>
    -- the operand would be the link of the group, with a blank behind it and no parenthesis
    rw [linked_cons] at hlinks
    have hoperand : e.canonicalForm ++ ([')'] ++ rest) =
        op.linkWord.toList ++ ' ' :: (g.canonicalForm ++ (linked op gs ++ [')'] ++ next)) := by
      simpa using hlinks.symm
    obtain ⟨-, hclose⟩ := eq_atom_of_append he op.isWordChar_linkWord (endsWord_close rest)
      (endsWord_blank (by decide) _) hoperand
    cases hclose

/-- Links and operands show the connective, if there are any, and the operands. -/
theorem linked_append_inj (hfs : ∀ f ∈ fs, UniquelyRead f) (hgs : ∀ g ∈ gs, g.Spelled)
    (h : linked op fs ++ [')'] ++ rest = linked other gs ++ [')'] ++ next) :
    fs.map norm = gs.map norm ∧ (fs ≠ [] → op = other) ∧ rest = next := by
  induction fs generalizing gs with
  | nil =>
    cases gs with
    | nil => simpa using h
    | cons g gs =>
      rw [linked_cons] at h
      simp at h
  | cons f fs ih =>
    cases gs with
    | nil =>
      rw [linked_cons] at h
      simp at h
    | cons g gs =>
      rw [linked_cons, linked_cons] at h
      have hlinks :
          op.linkWord.toList ++ ' ' :: (f.canonicalForm ++ (linked op fs ++ [')'] ++ rest)) =
            other.linkWord.toList ++
              ' ' :: (g.canonicalForm ++ (linked other gs ++ [')'] ++ next)) := by
        simpa using h
      obtain ⟨hword, hforms⟩ := word_append_inj op.isWordChar_linkWord other.isWordChar_linkWord
        (endsWord_blank (by decide) _) (endsWord_blank (by decide) _) hlinks
      obtain ⟨hnorm, hrest⟩ := hfs f List.mem_cons_self g _ _ (hgs g List.mem_cons_self)
        (endsWord_linked op fs rest) (endsWord_linked other gs next) (List.cons.inj hforms).2
      obtain ⟨hnorms, -, hsame⟩ := ih (fun f hf => hfs f (List.mem_cons_of_mem _ hf))
        (fun g hg => hgs g (List.mem_cons_of_mem _ hg)) hrest
      exact ⟨by rw [List.map_cons, List.map_cons, hnorm, hnorms],
        fun _ => Connective.linkWord_injective hword, hsame⟩

theorem uniquelyRead_atom (hname : ∀ c ∈ name.toList, isWordChar c = true) :
    (atom name).UniquelyRead := by
  intro f rest next hf hrest hnext h
  cases f with
  | atom other =>
    rw [canonicalForm_atom, canonicalForm_atom] at h
    obtain ⟨hsame, hends⟩ := word_append_inj hname (spelled_atom_iff.1 hf) hrest hnext h
    exact ⟨by rw [String.toList_injective hsame], hends⟩
  | node op fs => exact absurd h (atom_append_ne hname hrest)

theorem uniquelyRead_not (he : e.Spelled) (hread : e.UniquelyRead) :
    (node .not [e]).UniquelyRead := by
  intro f rest next hf hrest hnext h
  cases f with
  | atom name => exact absurd h.symm (atom_append_ne (spelled_atom_iff.1 hf) hnext)
  | node other gs =>
    obtain ⟨-, hgs, -⟩ := spelled_node_iff.1 hf
    rcases hf.not_or_group with ⟨rfl, g, rfl⟩ | ⟨hother, g, gs, rfl⟩
    · rw [canonicalForm_not, canonicalForm_not] at h
      have hforms : e.canonicalForm ++ ([')'] ++ rest) = g.canonicalForm ++ ([')'] ++ next) := by
        simpa using h
      obtain ⟨hnorm, hclose⟩ := hread g _ _ (hgs g List.mem_cons_self) (endsWord_close rest)
        (endsWord_close next) hforms
      exact ⟨by simp [norm_node, hnorm], (List.cons.inj hclose).2⟩
    · exact absurd h (not_append_ne_group hother he (hgs g List.mem_cons_self))

theorem uniquelyRead_group (hop : op ≠ .not) (hcount : op.arity.accepts (e :: fs).length = true)
    (he : e.Spelled) (hread : e.UniquelyRead) (hfs : ∀ f ∈ fs, UniquelyRead f) :
    (node op (e :: fs)).UniquelyRead := by
  intro f rest next hf hrest hnext h
  cases f with
  | atom name => exact absurd h.symm (atom_append_ne (spelled_atom_iff.1 hf) hnext)
  | node other gs =>
    obtain ⟨haccepts, hgs, -⟩ := spelled_node_iff.1 hf
    rcases hf.not_or_group with ⟨rfl, g, rfl⟩ | ⟨hother, g, gs, rfl⟩
    · exact absurd h.symm (not_append_ne_group hop (hgs g List.mem_cons_self) he)
    · rw [canonicalForm_group hop, canonicalForm_group hother] at h
      have hforms : e.canonicalForm ++ (linked op fs ++ [')'] ++ rest) =
          g.canonicalForm ++ (linked other gs ++ [')'] ++ next) := by
        simpa using h
      obtain ⟨hnorm, hlinks⟩ := hread g _ _ (hgs g List.mem_cons_self)
        (endsWord_linked op fs rest) (endsWord_linked other gs next) hforms
      obtain ⟨hnorms, hlink, hends⟩ := linked_append_inj hfs
        (fun g hg => hgs g (List.mem_cons_of_mem _ hg)) hlinks
      -- behind the first operand the links show the connective; without links it is `and`
      have hregroup : op.regroup (e :: fs).length = other.regroup (g :: gs).length := by
        cases fs with
        | nil =>
          obtain rfl : gs = [] := by simpa using hnorms.symm
          exact (Connective.regroup_one hop hcount).trans
            (Connective.regroup_one hother haccepts).symm
        | cons f fs =>
          have hlength : (e :: f :: fs).length = (g :: gs).length := by
            simpa using congrArg List.length hnorms
          rw [hlink (List.cons_ne_nil f fs), hlength]
      exact ⟨by rw [norm_node, norm_node, hregroup, List.map_cons, List.map_cons, hnorm, hnorms],
        hends⟩

theorem canonicalForm_append_inj (he : e.Spelled) : e.UniquelyRead := by
  induction e using induct with
  | atom name => exact uniquelyRead_atom (spelled_atom_iff.1 he)
  | node op fs ih =>
    obtain ⟨hcount, hfs, -⟩ := spelled_node_iff.1 he
    have hread : ∀ f ∈ fs, f.UniquelyRead := fun f hf => ih f hf (hfs f hf)
    rcases he.not_or_group with ⟨rfl, f, rfl⟩ | ⟨hop, f, fs, rfl⟩
    · exact uniquelyRead_not (hfs f List.mem_cons_self) (hread f List.mem_cons_self)
    · exact uniquelyRead_group hop hcount (hfs f List.mem_cons_self) (hread f List.mem_cons_self)
        fun g hg => hread g (List.mem_cons_of_mem _ hg)

theorem norm_eq_of_canonicalText_eq (he : e.Spelled) (hf : f.Spelled)
    (h : e.canonicalText = f.canonicalText) : e.norm = f.norm :=
  (canonicalForm_append_inj he f [] [] hf endsWord_nil endsWord_nil
    (by rw [String.ofList_injective h])).1

theorem linked_map_norm (h : ∀ f ∈ fs, f.norm.canonicalForm = f.canonicalForm) :
    linked op (fs.map norm) = linked op fs := by
  induction fs with
  | nil => rfl
  | cons f fs ih =>
    rw [List.map_cons, linked_cons, linked_cons, h f List.mem_cons_self,
      ih fun g hg => h g (List.mem_cons_of_mem _ hg)]

/-- The canonical form does not show what the normal form forgets. -/
theorem canonicalForm_norm (he : e.Spelled) : e.norm.canonicalForm = e.canonicalForm := by
  induction e using induct with
  | atom name => rw [norm_atom]
  | node op fs ih =>
    obtain ⟨-, hfs, -⟩ := spelled_node_iff.1 he
    have hforms : ∀ f ∈ fs, f.norm.canonicalForm = f.canonicalForm := fun f hf => ih f hf (hfs f hf)
    rcases he.not_or_group with ⟨rfl, f, rfl⟩ | ⟨hop, f, fs, rfl⟩
    · rw [norm_node, List.map_singleton, Connective.regroup_not, canonicalForm_not,
        canonicalForm_not, hforms f List.mem_cons_self]
    · have hregroup : op.regroup (f :: fs).length ≠ .not := fun h =>
        hop (Connective.regroup_eq_not_iff.1 h)
      have hlinks : linked (op.regroup (f :: fs).length) fs = linked op fs := by
        cases fs with
        | nil => rfl
        | cons g fs => rw [Connective.regroup_of_ne_one (by simp)]
      rw [norm_node, List.map_cons, canonicalForm_group hregroup, canonicalForm_group hop,
        hforms f List.mem_cons_self,
        linked_map_norm fun g hg => hforms g (List.mem_cons_of_mem _ hg), hlinks]

/-- **Canonical forms are unambiguous**: two formulas without a defect, whatever their symbols are
spelled like, are written alike just if they have the same normal form. Then they mean the same. -/
theorem canonicalText_eq_iff (he : e.defect? = none) (hf : f.defect? = none) :
    (e.canonicalText = f.canonicalText ↔ e.norm = f.norm) ∧
      (e.canonicalText = f.canonicalText → ∀ v, e.truth v = f.truth v) := by
  have hespelled := ((defect?_eq_none_iff e).1 he).spelled
  have hfspelled := ((defect?_eq_none_iff f).1 hf).spelled
  have hnorm : e.canonicalText = f.canonicalText → e.norm = f.norm :=
    norm_eq_of_canonicalText_eq hespelled hfspelled
  refine ⟨⟨hnorm, fun h => ?_⟩, fun h v => ?_⟩
  · rw [canonicalText, canonicalText, ← canonicalForm_norm hespelled, h,
      canonicalForm_norm hfspelled]
  · rw [← truth_norm v e, hnorm h, truth_norm]

/-- An implication whose canonical form is `((not) impl impl)` for each connective of one operand but
negation. -/
def notImplImpl (op : Connective) : Formula :=
  node .implies [node op [atom "not"], atom "impl"]

theorem canonicalText_eq_iff_notImplImpl :
    (notImplImpl .or).defect? = none ∧ (notImplImpl .xor).defect? = none ∧
      (notImplImpl .or).canonicalText = (notImplImpl .xor).canonicalText ∧
      notImplImpl .or ≠ notImplImpl .xor ∧ (notImplImpl .or).norm = (notImplImpl .xor).norm ∧
      ∀ v, (notImplImpl .or).truth v = (notImplImpl .xor).truth v := by
  have hnot : (atom "not").WellFormed := .atom (by decide) Connective.not.isWordChar_linkWord
  have himpl : (atom "impl").WellFormed := .atom (by decide) Connective.implies.isWordChar_linkWord
  have hvalid (op : Connective) (hop : op.arity.accepts 1 = true) :
      (notImplImpl op).defect? = none := by
    rw [defect?_eq_none_iff, notImplImpl]
    simp [wellFormed_node_iff, hnot, himpl, hop, show Connective.implies.arity.accepts 2 from rfl]
  have htext : (notImplImpl .or).canonicalText = (notImplImpl .xor).canonicalText := by
    simp [notImplImpl, canonicalText, canonicalForm_group]
  obtain ⟨hnorm, htruth⟩ := canonicalText_eq_iff (hvalid .or rfl) (hvalid .xor rfl)
  exact ⟨hvalid .or rfl, hvalid .xor rfl, htext, by simp [notImplImpl], hnorm.1 htext, htruth htext⟩

end Formula

end Consequence
