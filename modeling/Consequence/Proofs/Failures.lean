import Consequence.Proofs.Movement

/-!
# Where readers fail

A reader never leaves its line: whether it succeeds or not, the caret stands behind where it was, and
what a failure names is a stretch of the line between two characters.

* `Caret.Moves.marks`: where the caret moves, its two positions name the text in between.
* `Reader.kept_bind`: a sequence of two readers stays in the line if both do.
* `Reader.kept_word`, `Reader.kept_term`, `Reader.kept_operands`, `Reader.kept_prefixed`: one lemma for
  each reader.
* `Reader.kept_clause`: so it is for a whole line.
* `Reader.wide_clause`: and where the line is not blank, what a failure names is not empty.
-/

set_option autoImplicit false

namespace Consequence

/-- The two byte positions stand between characters of the line, in this order. -/
def Marks (line : List Char) (start stop : Nat) : Prop :=
  ∃ lead marked rest, line = lead ++ (marked ++ rest) ∧ start = byteLength lead ∧
    stop = byteLength (lead ++ marked)

/-- What the failure names is in the line. -/
def Failure.Within (line : List Char) : Failure → Prop
  | .located _ start stop => Marks line start stop
  | .tooDeep _ _ => True

theorem Caret.Moves.marks {caret after : Caret} {text : List Char} (h : caret.Moves text after) :
    Marks caret.line caret.position after.position := by
  refine ⟨caret.passed.reverse, text, after.ahead, ?_, ?_, ?_⟩
  · rw [Caret.line, h.ahead]
  · rw [byteLength_reverse, Caret.position]
  · rw [h.position_eq, byteLength_append, byteLength_reverse, Caret.position]

namespace Caret

variable {caret : Caret}

theorem moves_refl (caret : Caret) : caret.Moves [] caret := ⟨rfl, rfl⟩

/-- From a position on to the end of the line. -/
theorem marks_lineEnd (caret : Caret) : Marks caret.line caret.position caret.lineEnd :=
  ⟨caret.passed.reverse, caret.ahead, [], by rw [line, List.append_nil],
    by rw [byteLength_reverse, position],
    by rw [byteLength_append, byteLength_reverse, lineEnd, position]⟩

/-- The next character. -/
theorem marks_char {c : Char} (h : caret.ahead.head? = some c) :
    Marks caret.line caret.position (caret.position + c.utf8Size) := by
  have hmarks := (moves_advance h).marks
  rwa [(moves_advance h).position_eq, byteLength_cons, byteLength_nil, Nat.add_zero] at hmarks

end Caret

namespace Reader

variable {α β : Type} {r : Reader α} {f : α → Reader β} {caret between after opened : Caret}
  {form : Reader Formula} {limit rounds room : Nat}

/-- What came of reading from a caret: the caret was moved forward, and a failure is in its line. -/
def Kept (caret : Caret) : EStateM.Result Failure Caret α → Prop
  | .ok _ after => ∃ text, caret.Moves text after
  | .error e after => (∃ text, caret.Moves text after) ∧ e.Within caret.line

/-! ## Sequences -/

theorem kept_pure (a : α) : Kept caret ((pure a : Reader α) caret) :=
  ⟨[], caret.moves_refl⟩

theorem kept_fail {cause : Cause} {start stop : Nat} (h : Marks caret.line start stop) :
    Kept caret ((fail cause start stop : Reader α) caret) :=
  ⟨⟨[], caret.moves_refl⟩, h⟩

/-- What was read is behind the caret. -/
theorem Kept.moves {result : EStateM.Result Failure Caret α} {a : α} (h : Kept caret result)
    (hresult : result = .ok a after) : ∃ text, caret.Moves text after := by
  subst hresult
  exact h

/-- What is kept from a caret further on is kept from here. -/
theorem Kept.of_moves {result : EStateM.Result Failure Caret α} {text : List Char}
    (hmoves : caret.Moves text between) (h : Kept between result) : Kept caret result := by
  cases result with
  | ok a after =>
    obtain ⟨next, hnext⟩ := h
    exact ⟨text ++ next, hmoves.trans hnext⟩
  | error e after =>
    obtain ⟨⟨next, hnext⟩, hwithin⟩ := h
    rw [hmoves.line_eq] at hwithin
    exact ⟨⟨text ++ next, hmoves.trans hnext⟩, hwithin⟩

theorem kept_bind (hr : Kept caret (r caret))
    (hf : ∀ a between, r caret = .ok a between → Kept between (f a between)) :
    Kept caret ((r >>= f) caret) := by
  cases hresult : r caret with
  | ok a between =>
    rw [bind_ok hresult]
    obtain ⟨text, hmoves⟩ := hr.moves hresult
    exact (hf a between hresult).of_moves hmoves
  | error e after =>
    rw [bind_error hresult]
    rwa [hresult] at hr

/-! ## Words and formulas -/

theorem kept_word (caret : Caret) : Kept caret (word caret) := by
  have hskip := caret.moves_skip isWordChar
  rcases word_cases caret with ⟨-, hword⟩ | ⟨c, hc, -, hword⟩
  · rw [hword]
    exact ⟨_, hskip⟩
  · rw [hword]
    have hmarks := Caret.marks_char hc
    rw [hskip.line_eq] at hmarks
    exact ⟨⟨_, hskip⟩, hmarks⟩

/-- The reader stays in the line from an opening parenthesis on. -/
def KeepsForms (form : Reader Formula) : Prop :=
  ∀ caret, caret.ahead.head? = some '(' → Kept caret (form caret)

theorem kept_term (hform : KeepsForms form) (caret : Caret) : Kept caret (term form caret) := by
  have hskip := caret.moves_skip isBlank
  cases hc : (caret.skip isBlank).ahead.head? with
  | none =>
    rw [term_of_end hc]
    have hmarks := (Caret.moves_refl (caret.skip isBlank)).marks
    rw [hskip.line_eq] at hmarks
    exact ⟨⟨_, hskip⟩, hmarks⟩
  | some c =>
    by_cases hopen : c = '('
    · subst hopen
      rw [term_of_open hc]
      exact (hform _ hc).of_moves hskip
    · rw [term_of_word hc hopen]
      exact (kept_bind (kept_word _) fun name after _ => kept_pure _).of_moves hskip

/-! ## Forms -/

/-- A form that is not closed is named from its parenthesis to the end of the line. -/
theorem kept_unclosed {text : List Char} (hopened : opened.Moves text caret) :
    Kept caret ((unclosed opened : Reader α) caret) := by
  have hmarks := opened.marks_lineEnd
  rw [← hopened.line_eq] at hmarks
  exact kept_fail hmarks

theorem kept_operands (hform : KeepsForms form) (rounds : Nat) {text : List Char}
    (done : Array Formula) (hopened : opened.Moves text caret) :
    Kept caret (operands form opened rounds done caret) := by
  induction rounds generalizing text done caret with
  | zero => exact kept_unclosed hopened
  | succ rounds ih =>
    have hskip := caret.moves_skip isBlank
    have hopened' := hopened.trans hskip
    cases hc : (caret.skip isBlank).ahead.head? with
    | none =>
      rw [operands_of_end hc]
      exact (kept_unclosed hopened').of_moves hskip
    | some c =>
      by_cases hclose : c = ')'
      · subst hclose
        rw [operands_of_close hc]
        exact ⟨_, hskip.trans (Caret.moves_advance hc)⟩
      · rw [operands_of_operand hc hclose]
        have hterm := kept_term hform (caret.skip isBlank)
        refine (kept_bind hterm fun g between hread => ?_).of_moves hskip
        obtain ⟨next, hmoves⟩ := hterm.moves hread
        exact ih (done.push g) (hopened'.trans hmoves)

theorem kept_prefixed : KeepsForms (prefixed limit rounds room) := by
  induction room with
  | zero => exact fun caret _ => ⟨⟨[], caret.moves_refl⟩, trivial⟩
  | succ room ih =>
    intro opened hopen
    have hadvance := Caret.moves_advance hopen
    rw [prefixed, bind_ok (get_eq opened), bind_ok (advance_eq _), bind_ok (get_eq _)]
    refine (kept_bind (kept_word _) fun name stop hword => ?_).of_moves hadvance
    have hstop := moves_word hword
    rw [bind_ok (get_eq stop)]
    have hoperands := kept_operands ih rounds #[] (hadvance.trans hstop)
    refine kept_bind hoperands fun fs last hfs => ?_
    obtain ⟨text, hlast⟩ := hoperands.moves hfs
    cases Connective.ofWord? name with
    | some op => exact kept_pure _
    | none =>
      -- the word is only looked up here, so its place lies behind the caret
      simp only
      split
      · have hmarks := Caret.marks_char hopen
        rw [← ((hadvance.trans hstop).trans hlast).line_eq] at hmarks
        exact kept_fail hmarks
      · have hmarks := hstop.marks
        rw [← (hstop.trans hlast).line_eq] at hmarks
        exact kept_fail hmarks

/-- **Reading a clause stays in the line**, and what is wrong with it is named in the line. -/
theorem kept_clause (limit : Nat) (caret : Caret) : Kept caret (clause limit caret) := by
  have hformula : Kept caret (formula limit caret) := by
    rw [formula_eq]
    exact kept_term kept_prefixed caret
  exact kept_bind hformula fun f last _ =>
    kept_bind ⟨_, last.moves_skip isBlank⟩ fun _ after _ => kept_pure _

/-! ## What a failure names is not empty -/

/-- A failure at a place reaches behind the place where it starts. -/
def Wide : EStateM.Result Failure Caret α → Prop
  | .error (.located _ start stop) _ => start < stop
  | .error (.tooDeep _ _) _ => True
  | .ok _ _ => True

theorem wide_bind (hr : Wide (r caret))
    (hf : ∀ a between, r caret = .ok a between → Wide (f a between)) : Wide ((r >>= f) caret) := by
  cases hresult : r caret with
  | ok a between =>
    rw [bind_ok hresult]
    exact hf a between hresult
  | error e after =>
    rw [bind_error hresult]
    rw [hresult] at hr
    cases e <;> exact hr

theorem wide_word (caret : Caret) : Wide (word caret) := by
  rcases word_cases caret with ⟨-, hword⟩ | ⟨c, -, -, hword⟩
  · rw [hword]
    trivial
  · rw [hword]
    exact Nat.lt_add_of_pos_right c.utf8Size_pos

/-- The reader fails with something to name from an opening parenthesis on. -/
def WidensForms (form : Reader Formula) : Prop :=
  ∀ caret, caret.ahead.head? = some '(' → Wide (form caret)

/-- Only at the end of a line there is nothing to name. -/
theorem wide_term (hform : WidensForms form) {c : Char}
    (hc : (caret.skip isBlank).ahead.head? = some c) : Wide (term form caret) := by
  by_cases hopen : c = '('
  · subst hopen
    rw [term_of_open hc]
    exact hform _ hc
  · rw [term_of_word hc hopen]
    exact wide_bind (wide_word _) fun name after _ => trivial

theorem wide_unclosed (hopen : opened.ahead.head? = some '(') :
    Wide ((unclosed opened : Reader α) caret) := by
  obtain ⟨rest, hahead⟩ := List.head?_eq_some_iff.1 hopen
  refine Nat.lt_add_of_pos_right ?_
  rw [hahead, byteLength_cons]
  exact Nat.add_pos_left (Char.utf8Size_pos _) _

theorem wide_operands (hform : WidensForms form) (hopen : opened.ahead.head? = some '(')
    (rounds : Nat) (done : Array Formula) : Wide (operands form opened rounds done caret) := by
  induction rounds generalizing done caret with
  | zero => exact wide_unclosed hopen
  | succ rounds ih =>
    cases hc : (caret.skip isBlank).ahead.head? with
    | none =>
      rw [operands_of_end hc]
      exact wide_unclosed hopen
    | some c =>
      by_cases hclose : c = ')'
      · subst hclose
        rw [operands_of_close hc]
        trivial
      · rw [operands_of_operand hc hclose]
        have hagain := Caret.skip_eq_self _ hc (Caret.head?_skip hc)
        exact wide_bind (wide_term hform (by rw [hagain, hc])) fun g between _ => ih _

theorem wide_prefixed : WidensForms (prefixed limit rounds room) := by
  induction room with
  | zero => exact fun caret _ => trivial
  | succ room ih =>
    intro opened hopen
    rw [prefixed, bind_ok (get_eq opened), bind_ok (advance_eq _), bind_ok (get_eq _)]
    refine wide_bind (wide_word _) fun name stop hword => ?_
    rw [bind_ok (get_eq stop)]
    refine wide_bind (wide_operands ih hopen rounds #[]) fun fs last _ => ?_
    cases Connective.ofWord? name with
    | some op => trivial
    | none =>
      simp only
      split
      · exact Nat.lt_succ_self _
      · next hname =>
        obtain ⟨c, cs, hcs⟩ := List.exists_cons_of_ne_nil fun h => hname (String.toList_eq_nil_iff.1 h)
        have hstop := (moves_word hword).position_eq
        rw [hcs, byteLength_cons] at hstop
        have hpos := c.utf8Size_pos
        show opened.advance.position < stop.position
        omega

/-- A line that is not blank fails with something to name. -/
theorem wide_clause (limit : Nat) {c : Char} (hc : (caret.skip isBlank).ahead.head? = some c) :
    Wide (clause limit caret) := by
  have hformula : Wide (formula limit caret) := by
    rw [formula_eq]
    exact wide_term wide_prefixed hc
  exact wide_bind hformula fun f last _ => wide_bind trivial fun _ after _ => trivial

end Reader

end Consequence
