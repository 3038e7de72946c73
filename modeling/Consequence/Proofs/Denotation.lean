import Consequence.Proofs.Movement

/-!
# What texts denote

The prefix syntax as a grammar. A word denotes an atom. A form denotes a connective over what its operands
denote; blanks may stand in front of each operand and of the closing parenthesis, and must where two words
would run together.

* `Denotes`: a text denotes a formula.
* `Reader.denotes_prefixed`: the text that a form is read from denotes it.
* `Reader.reads_denotes`: a text that denotes a formula is read as this formula, whatever follows it.
* `FirstFormula`: a line starts with a formula and goes on with text that is not part of it.
* `Reader.clause_eq_ok_iff_firstFormula`: reading a line gives the formula that it starts with, so there
  is only one (`FirstFormula.unique`).
-/

set_option autoImplicit false

namespace Consequence

/-! ## Symbols -/

/-- A name that a word can spell. -/
def IsSymbol (name : String) : Prop :=
  name ≠ "" ∧ ∀ c ∈ name.toList, isWordChar c = true

instance (name : String) : Decidable (IsSymbol name) :=
  decidable_of_iff (name ≠ "" ∧ name.toList.all isWordChar = true) (by simp [IsSymbol])

namespace Formula

/-- Every symbol is a word. -/
def Named (f : Formula) : Prop :=
  ∀ name ∈ f.atoms, IsSymbol name

theorem named_atom_iff {name : String} : (atom name).Named ↔ IsSymbol name := by
  simp [Named, atoms]

theorem named_node_iff {op : Connective} {fs : List Formula} :
    (node op fs).Named ↔ ∀ f ∈ fs, f.Named := by
  simp only [Named, mem_atoms_node]
  constructor
  · intro h f hf name hname
    exact h name ⟨f, hf, hname⟩
  · rintro h name ⟨f, hf, hname⟩
    exact h f hf name hname

theorem WellFormed.named {f : Formula} (h : f.WellFormed) : f.Named := by
  induction f using induct with
  | atom name => exact named_atom_iff.2 (wellFormed_atom_iff.1 h)
  | node op fs ih => exact named_node_iff.2 fun f hf => ih f hf ((wellFormed_node_iff.1 h).2 f hf)

/-- The text behind the formula does not run into it: an atom needs the end of a word, and a form has its
closing parenthesis. -/
def StopsAt : Formula → List Char → Prop
  | atom _, rest => EndsWord rest
  | node _ _, _ => True

end Formula

/-! ## The grammar -/

/-- The operands of a form, with the blanks in front of them, and its closing parenthesis. -/
inductive DenotesOperands (denotes : List Char → Formula → Prop) : List Char → List Formula → Prop where
  | close {blanks : List Char} : (∀ c ∈ blanks, isBlank c = true) →
      DenotesOperands denotes (blanks ++ [')']) []
  | operand {blanks text rest : List Char} {f : Formula} {fs : List Formula} :
      (∀ c ∈ blanks, isBlank c = true) → denotes text f → f.StopsAt rest →
      DenotesOperands denotes rest fs → DenotesOperands denotes (blanks ++ (text ++ rest)) (f :: fs)

/-- The text denotes the formula. -/
inductive Denotes : List Char → Formula → Prop where
  | atom {name : String} : IsSymbol name → Denotes name.toList (.atom name)
  | node {op : Connective} {name : String} {text : List Char} {fs : List Formula} :
      (∀ c ∈ name.toList, isWordChar c = true) → Connective.ofWord? name = some op → EndsWord text →
      DenotesOperands Denotes text fs → Denotes ('(' :: (name.toList ++ text)) (.node op fs)

section
variable {denotes : List Char → Formula → Prop} {text rest : List Char} {f : Formula} {fs : List Formula}

theorem DenotesOperands.ne_nil (h : DenotesOperands denotes text fs) : text ≠ [] := by
  induction h with
  | close _ => simp
  | operand _ _ _ _ ih => simp [ih]

theorem DenotesOperands.forall_mem {good : Formula → Prop} (h : DenotesOperands denotes text fs)
    (hgood : ∀ f ∈ fs, ∀ text, denotes text f → good f) : ∀ f ∈ fs, good f := by
  induction h with
  | close _ => simp
  | operand _ hf _ _ ih =>
    rw [List.forall_mem_cons] at hgood ⊢
    exact ⟨hgood.1 _ hf, ih hgood.2⟩

/-- The symbols of what a text denotes are words. -/
theorem Denotes.named (h : Denotes text f) : f.Named := by
  induction f using Formula.induct generalizing text with
  | atom name =>
    cases h with
    | atom hname => exact Formula.named_atom_iff.2 hname
  | node op fs ih =>
    cases h with
    | node _ _ _ hfs => exact Formula.named_node_iff.2 (hfs.forall_mem fun f hf _ => ih f hf)

theorem endsWord_append_iff (hne : text ≠ []) : EndsWord (text ++ rest) ↔ EndsWord text := by
  rw [EndsWord, EndsWord, List.head?_append, List.head?_eq_some_head hne, Option.some_or]

/-- Only the first character of what follows a formula counts. -/
theorem Formula.stopsAt_append_iff (hne : text ≠ []) : f.StopsAt (text ++ rest) ↔ f.StopsAt text := by
  cases f with
  | atom name => exact endsWord_append_iff hne
  | node op fs => exact Iff.rfl

/-- Any formula stops where a word ends. -/
theorem EndsWord.stopsAt (h : EndsWord rest) : f.StopsAt rest := by
  cases f with
  | atom name => exact h
  | node op fs => trivial

/-- A text that denotes a formula starts with a character that is no blank, closes nothing and starts no
comment. -/
theorem Denotes.eq_cons (h : Denotes text f) :
    ∃ c chars, text = c :: chars ∧ isBlank c = false ∧ c ≠ ')' ∧ c ≠ '#' := by
  cases h with
  | node => exact ⟨'(', _, rfl, by decide, by decide, by decide⟩
  | @atom name hname =>
    obtain ⟨hne, hall⟩ := hname
    obtain ⟨c, chars, hchars⟩ := List.exists_cons_of_ne_nil (mt String.toList_eq_nil_iff.1 hne)
    have hc := hall c (by simp [hchars])
    refine ⟨c, chars, hchars, Bool.eq_false_iff.2 fun hblank => ?_, ?_, ?_⟩
    · rw [isWordChar_of_isBlank hblank] at hc
      cases hc
    · rintro rfl
      revert hc
      decide
    · rintro rfl
      revert hc
      decide

end

namespace Reader

variable {caret after opened : Caret} {form : Reader Formula} {f : Formula} {fs : List Formula}
  {done : Array Formula} {limit rounds room bound : Nat} {text rest : List Char}

/-! ## What is read denotes what it gives -/

/-- The text from the caret to `after` denotes the formula, and what follows stops it. -/
def Takes (caret : Caret) (f : Formula) (after : Caret) : Prop :=
  ∃ text, caret.Moves text after ∧ Denotes text f ∧ f.StopsAt after.ahead

/-- Where a form starts, the reader takes the text of the form that it gives. -/
def TakesForms (form : Reader Formula) : Prop :=
  ∀ caret f after, caret.ahead.head? = some '(' → form caret = .ok f after → Takes caret f after

theorem takes_term (hform : TakesForms form) (h : term form caret = .ok f after)
    (hclose : (caret.skip isBlank).ahead.head? ≠ some ')') : Takes (caret.skip isBlank) f after := by
  rcases term_eq_ok_iff.1 h with ⟨hopen, hf⟩ | ⟨c, name, hc, -, hword, rfl⟩
  · exact hform _ _ _ hopen hf
  · have hmoves := moves_word hword
    obtain ⟨hall, hempty⟩ := word_spelled hword hc
    refine ⟨name.toList, hmoves, .atom ⟨?_, hall⟩, ?_⟩
    · -- a word without characters would stand in front of a closing parenthesis
      rintro rfl
      rw [hmoves.ahead] at hclose
      exact hclose (hempty rfl)
    · obtain ⟨-, rfl, hends⟩ := word_eq_ok_iff.1 hword
      exact hends

theorem word_spells {name : String} (h : word caret = .ok name after) :
    (∀ c ∈ name.toList, isWordChar c = true) ∧ EndsWord after.ahead := by
  obtain ⟨rfl, rfl, hends⟩ := word_eq_ok_iff.1 h
  rw [String.toList_ofList]
  exact ⟨fun c hc => List.all_eq_true.1 List.all_takeWhile c hc, hends⟩

theorem denotes_operands (hform : TakesForms form)
    (h : operands form opened rounds done caret = .ok fs after) :
    ∃ gs text, fs = done.toList ++ gs ∧ caret.Moves text after ∧ DenotesOperands Denotes text gs := by
  induction rounds generalizing done caret with
  | zero => exact absurd h operands_zero_ne_ok
  | succ rounds ih =>
    have hskip := caret.moves_skip isBlank
    have hblanks : ∀ c ∈ caret.ahead.takeWhile isBlank, isBlank c = true :=
      fun c hc => List.all_eq_true.1 List.all_takeWhile c hc
    rcases operands_succ_eq_ok_iff.1 h with ⟨hclose, rfl, rfl⟩ | ⟨c, g, next, hc, hclose, hterm, hrest⟩
    · exact ⟨[], _, by simp, hskip.trans (Caret.moves_advance hclose), .close hblanks⟩
    · have hself := Caret.skip_eq_self (caret.skip isBlank) hc (Caret.head?_skip hc)
      obtain ⟨text, hmoves, hg, hstops⟩ := takes_term hform hterm (by rw [hself, hc]; simpa using hclose)
      rw [hself] at hmoves
      obtain ⟨gs, others, rfl, hothers, hgs⟩ := ih hrest
      rw [hothers.ahead, Formula.stopsAt_append_iff hgs.ne_nil] at hstops
      refine ⟨g :: gs, _, by simp, hskip.trans (hmoves.trans hothers), .operand hblanks hg hstops hgs⟩

theorem denotes_prefixed : TakesForms (prefixed limit rounds room) := by
  induction room with
  | zero => exact fun _ _ _ _ h => absurd h prefixed_zero_ne_ok
  | succ room ih =>
    intro caret f after hopen h
    obtain ⟨name, op, stop, fs, hword, hoperands, hop, rfl⟩ := prefixed_succ_eq_ok_iff.1 h
    obtain ⟨gs, text, rfl, hmoves, hgs⟩ := denotes_operands ih hoperands
    obtain ⟨hname, hends⟩ := word_spells hword
    rw [hmoves.ahead, endsWord_append_iff hgs.ne_nil] at hends
    have htext := ((Caret.moves_advance hopen).trans (moves_word hword)).trans hmoves
    refine ⟨'(' :: (name.toList ++ text), by simpa using htext, ?_, trivial⟩
    exact .node hname hop hends (by simpa using hgs)

/-! ## What denotes a formula is read as it -/

theorem reads_operands (h : DenotesOperands Denotes text fs)
    (hforms : ∀ f ∈ fs, ∀ text rest, Denotes text f → text.length ≤ bound → f.StopsAt rest →
      Reads (term form) text rest f)
    (hbound : text.length ≤ bound) (hrounds : text.length ≤ rounds) :
    Reads (operands form opened rounds done) text rest (done.toList ++ fs) := by
  induction h generalizing done rounds with
  | @close blanks hblanks =>
    intro passed
    obtain ⟨rounds, rfl⟩ := Nat.exists_eq_add_one.2 (Nat.lt_of_lt_of_le (by simp) hrounds)
    have hskip := @Caret.skip_append isBlank blanks (')' :: rest) hblanks (by simp; decide) passed
    rw [List.append_assoc, List.singleton_append, operands_of_close (by rw [hskip]; rfl), hskip]
    simp [Caret.advance]
  | @operand blanks text others f fs hblanks hf hstops hfs ih =>
    intro passed
    rw [List.forall_mem_cons] at hforms
    simp only [List.length_append] at hbound hrounds
    obtain ⟨c, chars, rfl, hblank, hclose, -⟩ := hf.eq_cons
    rw [List.length_cons] at hbound hrounds
    obtain ⟨rounds, rfl⟩ := Nat.exists_eq_add_one.2 (show 0 < rounds by omega)
    have hterm := hforms.1 _ (others ++ rest) hf (by rw [List.length_cons]; omega)
      ((Formula.stopsAt_append_iff hfs.ne_nil).2 hstops)
    have hrest := @ih (done.push f) rounds hforms.2 (by omega) (by omega)
    have hskip := @Caret.skip_append isBlank blanks (c :: chars ++ (others ++ rest)) hblanks
      (by simpa using hblank) passed
    rw [List.append_assoc, List.append_assoc, operands_of_operand (c := c) (by rw [hskip]; rfl) hclose,
      hskip, bind_ok (hterm _), hrest]
    simp

theorem reads_denotes (h : Denotes text f) (hdepth : f.depth ≤ room) (hbound : text.length ≤ bound)
    (hrest : f.StopsAt rest) : Reads (term (prefixed limit bound room)) text rest f := by
  induction f using Formula.induct generalizing room text rest with
  | atom name =>
    cases h with
    | atom hname => exact reads_term_atom hname.2 hrest (.inl hname.1)
  | node op fs ih =>
    cases h with
    | @node _ name text _ hname hop hends hfs =>
      obtain ⟨room, rfl, hroom⟩ := Formula.room_of_depth_node_le hdepth
      simp only [List.length_cons, List.length_append] at hbound
      rw [reads_term_form]
      intro passed
      have hword : Reads word name.toList (text ++ rest) name :=
        reads_word hname ((endsWord_append_iff hfs.ne_nil).2 hends)
      have hoperands (opened : Caret) :
          Reads (operands (prefixed limit bound room) opened bound #[]) text rest fs :=
        reads_operands hfs (fun f hf _ _ hg hle hstops => ih f hf hg (hroom f hf) hle hstops) (by omega)
          (by omega)
      rw [prefixed_succ_eq_ok_iff]
      refine ⟨name, op, ⟨name.toList.reverse ++ '(' :: passed, text ++ rest⟩, fs, ?_, ?_, hop, rfl⟩
      · simpa [Caret.advance] using hword ('(' :: passed)
      · simpa using hoperands _ (name.toList.reverse ++ '(' :: passed)

end Reader

/-! ## Lines -/

/-- The line starts with a formula between blanks, which is `kept`, and goes on with `unread`: nothing, or
text that does not start with a blank. -/
structure FirstFormula (f : Formula) (line kept unread : List Char) : Prop where
  line_eq : line = kept ++ unread
  kept_eq : ∃ lead text gap, kept = lead ++ (text ++ gap) ∧ (∀ c ∈ lead, isBlank c = true) ∧
    Denotes text f ∧ (∀ c ∈ gap, isBlank c = true) ∧ f.StopsAt (gap ++ unread)
  head?_unread : ∀ c ∈ unread.head?, isBlank c = false

section
variable {f g : Formula} {line kept unread other others : List Char} {limit : Nat} {after : Caret}

theorem FirstFormula.named (h : FirstFormula f line kept unread) : f.Named := by
  obtain ⟨_, _, _, _, _, hdenotes, _, _⟩ := h.kept_eq
  exact hdenotes.named

theorem Formula.Named.ne_empty (h : f.Named) : f ≠ .atom "" := by
  rintro rfl
  exact (named_atom_iff.1 h).1 rfl

/-- A line that does not start with a closing parenthesis is read as the formula that it starts with, up to
the first character behind it that is no blank. -/
theorem Reader.firstFormula_of_clause {passed : List Char} (h : clause limit ⟨passed, line⟩ = .ok f after)
    (hclose : (line.dropWhile isBlank).head? ≠ some ')') :
    ∃ kept unread, FirstFormula f line kept unread ∧ after = ⟨kept.reverse ++ passed, unread⟩ := by
  obtain ⟨last, hformula, rfl⟩ := clause_eq_ok_iff.1 h
  rw [formula_eq] at hformula
  obtain ⟨text, htext, hdenotes, hstops⟩ := takes_term denotes_prefixed hformula hclose
  have hmoves := ((Caret.moves_skip isBlank _).trans htext).trans (last.moves_skip isBlank)
  refine ⟨_, (last.skip isBlank).ahead, ⟨hmoves.ahead, ⟨_, text, _, List.append_assoc _ _ _, ?_,
    hdenotes, ?_, ?_⟩, ?_⟩, ?_⟩
  · exact fun c hc => List.all_eq_true.1 List.all_takeWhile c hc
  · exact fun c hc => List.all_eq_true.1 List.all_takeWhile c hc
  · rw [← (last.moves_skip isBlank).ahead]
    exact hstops
  · exact fun c hc => Caret.head?_skip hc
  · rw [← hmoves.passed]

/-- A line is read as the formula that it starts with, if that is no deeper than the limit, and up to the
first character behind it that is no blank. -/
theorem Reader.clause_eq_ok_iff_firstFormula (hf : f ≠ .atom "") (passed : List Char) :
    clause limit ⟨passed, line⟩ = .ok f after ↔
      f.depth ≤ limit ∧ ∃ kept unread, FirstFormula f line kept unread ∧
        after = ⟨kept.reverse ++ passed, unread⟩ := by
  constructor
  · intro h
    refine ⟨depth_clause h, firstFormula_of_clause h fun hclose => ?_⟩
    rw [@clause_of_close ⟨passed, line⟩ limit hclose] at h
    cases h
    exact hf rfl
  · rintro ⟨hdepth, kept, unread, ⟨rfl, ⟨lead, text, gap, rfl, hlead, hdenotes, hgap, hstops⟩, hunread⟩,
      rfl⟩
    have hread : Reads (term (prefixed limit (lead ++ (text ++ gap) ++ unread).length limit)) text
        (gap ++ unread) f := reads_denotes hdenotes hdepth (by simp; omega) hstops
    have hformula := hread.blanks hlead passed
    rw [clause_eq_ok_iff]
    refine ⟨⟨(lead ++ text).reverse ++ passed, gap ++ unread⟩, ?_, ?_⟩
    · rw [formula_eq]
      simpa using hformula
    · rw [Caret.skip_append hgap hunread]
      simp

/-- A line starts with one formula only. -/
theorem FirstFormula.unique (h : FirstFormula f line kept unread)
    (h' : FirstFormula g line other others) : f = g ∧ kept = other ∧ unread = others := by
  have hread : Reader.clause (max f.depth g.depth) ⟨[], line⟩ = .ok f ⟨kept.reverse ++ [], unread⟩ :=
    (Reader.clause_eq_ok_iff_firstFormula h.named.ne_empty []).2 ⟨Nat.le_max_left _ _, _, _, h, rfl⟩
  rw [(Reader.clause_eq_ok_iff_firstFormula h'.named.ne_empty []).2
    ⟨Nat.le_max_right _ _, _, _, h', rfl⟩] at hread
  simp only [EStateM.Result.ok.injEq, Caret.mk.injEq, List.append_nil, List.reverse_inj] at hread
  obtain ⟨rfl, rfl, rfl⟩ := hread
  exact ⟨rfl, rfl, rfl⟩

end

end Consequence
