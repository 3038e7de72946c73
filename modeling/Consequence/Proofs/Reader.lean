import Consequence.Proofs.Characters
import Consequence.Proofs.Room
import Consequence.Proofs.Sequencing

/-!
# How readers run

* `Caret.Moves`: the caret moves over some text; `Caret.Moves.line_eq`: it stays in its line.
* `Reader.word_eq_ok_iff`: what a word is, and where it may stand; `Reader.word_cases`: it is read or refused.
* `Reader.term_eq_ok_iff`: a formula is an atom or a form.
* `Reader.Reads`: a reader reads a text in front of a rest, whatever was read before.
-/

set_option autoImplicit false

namespace Consequence

/-! ## Carets -/

section
variable {p : Char → Bool} {text rest : List Char}

theorem Caret.head?_skip {c : Char} {caret : Caret} (h : (caret.skip p).ahead.head? = some c) :
    p c = false := by
  have hnot := List.head?_dropWhile_not p caret.ahead
  simp only [Caret.skip] at h
  simpa [h] using hnot

theorem Caret.skip_eq_self {c : Char} (caret : Caret) (h : caret.ahead.head? = some c)
    (hc : p c = false) : caret.skip p = caret := by
  obtain ⟨passed, ahead⟩ := caret
  cases ahead with
  | nil => cases h
  | cons d ahead =>
    cases h
    simp [Caret.skip, hc]

/-- At the end of the line the caret stays where it is. -/
theorem Caret.advance_of_end {caret : Caret} (h : caret.ahead.head? = none) :
    caret.advance = caret := by
  rw [advance, List.head?_eq_none_iff.1 h]

theorem Caret.skip_of_end {caret : Caret} (h : caret.ahead.head? = none) : caret.skip p = caret := by
  obtain ⟨passed, ahead⟩ := caret
  obtain rfl : ahead = [] := List.head?_eq_none_iff.1 h
  rfl

/-- A run of characters is skipped one by one. -/
theorem Caret.skip_advance {c : Char} {caret : Caret} (h : caret.ahead.head? = some c)
    (hc : p c = true) : caret.advance.skip p = caret.skip p := by
  obtain ⟨passed, ahead⟩ := caret
  cases ahead with
  | nil => cases h
  | cons d ahead =>
    cases h
    simp [advance, skip, hc]

/-- The caret skips a run of characters that ends in front of the rest. -/
theorem Caret.skip_append (htext : ∀ c ∈ text, p c = true) (hrest : ∀ c ∈ rest.head?, p c = false)
    (passed : List Char) :
    Caret.skip p ⟨passed, text ++ rest⟩ = ⟨text.reverse ++ passed, rest⟩ := by
  rw [Caret.skip, takeWhile_append htext hrest, dropWhile_append htext hrest, List.reverseAux_eq]

end

/-- The caret `after` stands behind `text`, which is ahead of `caret`. -/
structure Caret.Moves (caret : Caret) (text : List Char) (after : Caret) : Prop where
  ahead : caret.ahead = text ++ after.ahead
  passed : after.passed = text.reverse ++ caret.passed

namespace Caret

variable {caret between after : Caret} {text next : List Char}

theorem Moves.trans (h : caret.Moves text between) (h' : between.Moves next after) :
    caret.Moves (text ++ next) after where
  ahead := by rw [h.ahead, h'.ahead, List.append_assoc]
  passed := by rw [h'.passed, h.passed, List.reverse_append, List.append_assoc]

theorem Moves.line_eq (h : caret.Moves text after) : after.line = caret.line := by
  simp [line, h.ahead, h.passed]

theorem Moves.length_eq (h : caret.Moves text after) :
    caret.ahead.length = text.length + after.ahead.length := by
  rw [h.ahead, List.length_append]

theorem Moves.length_le (h : caret.Moves text after) : after.ahead.length ≤ caret.ahead.length := by
  rw [h.length_eq]
  exact Nat.le_add_left _ _

theorem Moves.position_eq (h : caret.Moves text after) :
    after.position = caret.position + byteLength text := by
  simp [position, h.passed, Nat.add_comm]

theorem moves_skip (p : Char → Bool) (caret : Caret) :
    caret.Moves (caret.ahead.takeWhile p) (caret.skip p) where
  ahead := List.takeWhile_append_dropWhile.symm
  passed := List.reverseAux_eq

theorem length_skip_le (p : Char → Bool) (caret : Caret) :
    (caret.skip p).ahead.length ≤ caret.ahead.length :=
  (caret.moves_skip p).length_le

theorem moves_advance {c : Char} (h : caret.ahead.head? = some c) :
    caret.Moves [c] caret.advance := by
  obtain ⟨passed, ahead⟩ := caret
  cases ahead with
  | nil => cases h
  | cons d ahead =>
    cases h
    exact ⟨rfl, rfl⟩

theorem lineEnd_eq (caret : Caret) : caret.lineEnd = byteLength caret.line := by
  simp [lineEnd, line, position]

end Caret

namespace Reader

variable {α β : Type} {r : Reader α} {f : α → Reader β} {caret after : Caret} {a : α} {b : β}

/-! ## Single steps -/

theorem pure_eq_ok_iff {c : α} :
    (pure a : Reader α) caret = .ok c after ↔ a = c ∧ caret = after := by
  simp [pure, EStateM.pure]

theorem get_eq (caret : Caret) : (get : Reader Caret) caret = .ok caret caret := rfl

theorem set_eq (next caret : Caret) : (set next : Reader PUnit) caret = .ok ⟨⟩ next := rfl

theorem peek_eq (caret : Caret) : peek caret = .ok caret.ahead.head? caret := rfl

theorem advance_eq (caret : Caret) : advance caret = .ok () caret.advance := rfl

theorem skipBlanks_eq (caret : Caret) : skipBlanks caret = .ok () (caret.skip isBlank) := rfl

theorem fail_eq (cause : Cause) (start stop : Nat) (caret : Caret) :
    (fail cause start stop : Reader α) caret = .error (.located cause start stop) caret := rfl

theorem fail_ne_ok {cause : Cause} {start stop : Nat} :
    (fail cause start stop : Reader α) caret ≠ .ok a after := by
  intro h
  cases h

theorem failAt_ne_ok {cause : Cause} {c : Char} :
    (failAt cause c : Reader α) caret ≠ .ok a after := by
  intro h
  cases h

theorem unclosed_ne_ok {opened : Caret} : (unclosed opened : Reader α) caret ≠ .ok a after :=
  fail_ne_ok

/-- A word is a run of symbol characters in front of something that ends a word. -/
theorem word_eq_ok_iff {name : String} :
    word caret = .ok name after ↔
      String.ofList (caret.ahead.takeWhile isWordChar) = name ∧ caret.skip isWordChar = after ∧
        EndsWord (caret.skip isWordChar).ahead := by
  unfold word
  rw [bind_ok (get_eq caret), bind_ok (set_eq _ _), bind_ok (peek_eq _)]
  simp only [EndsWord]
  cases (caret.skip isWordChar).ahead.head? with
  | none => simp [pure_eq_ok_iff]
  | some c =>
    by_cases hc : (c = ')' || isBlank c) = true
    · have hends : c = ')' ∨ isBlank c = true := by simpa using hc
      simp [hends, pure_eq_ok_iff]
    · have hends : ¬ (c = ')' ∨ isBlank c = true) := by simpa using hc
      simp [hends, failAt_ne_ok]

/-- A word fails at the character that does not end it. -/
theorem word_refuses {c : Char} (h : (caret.skip isWordChar).ahead.head? = some c)
    (hc : ¬ (c = ')' ∨ isBlank c = true)) :
    word caret = .error (.located (.unexpectedChar c) (caret.skip isWordChar).position
      ((caret.skip isWordChar).position + c.utf8Size)) (caret.skip isWordChar) := by
  unfold word
  rw [bind_ok (get_eq caret), bind_ok (set_eq _ _), bind_ok (peek_eq _), h]
  simp only [Bool.or_eq_true, decide_eq_true_eq, hc, if_false]
  rfl

/-- A word is read or refused, and the caret is behind its run of symbol characters either way. -/
theorem word_cases (caret : Caret) :
    (EndsWord (caret.skip isWordChar).ahead ∧
      word caret = .ok (String.ofList (caret.ahead.takeWhile isWordChar)) (caret.skip isWordChar)) ∨
    ∃ c, (caret.skip isWordChar).ahead.head? = some c ∧ ¬ (c = ')' ∨ isBlank c = true) ∧
      word caret = .error (.located (.unexpectedChar c) (caret.skip isWordChar).position
        ((caret.skip isWordChar).position + c.utf8Size)) (caret.skip isWordChar) := by
  by_cases hends : EndsWord (caret.skip isWordChar).ahead
  · exact .inl ⟨hends, word_eq_ok_iff.2 ⟨rfl, rfl, hends⟩⟩
  · obtain ⟨c, hc, hnot⟩ : ∃ c, (caret.skip isWordChar).ahead.head? = some c ∧
        ¬ (c = ')' ∨ isBlank c = true) := by
      simpa [EndsWord] using hends
    exact .inr ⟨c, hc, hnot, word_refuses hc hnot⟩

section
variable {form : Reader Formula} {c : Char}

theorem term_of_end (h : (caret.skip isBlank).ahead.head? = none) :
    term form caret = .error (.located .missingFormula (caret.skip isBlank).position
      (caret.skip isBlank).position) (caret.skip isBlank) := by
  unfold term
  rw [bind_ok (skipBlanks_eq caret), bind_ok (peek_eq _), h]
  rfl

theorem term_of_open (h : (caret.skip isBlank).ahead.head? = some '(') :
    term form caret = form (caret.skip isBlank) := by
  unfold term
  rw [bind_ok (skipBlanks_eq caret), bind_ok (peek_eq _), h]
  rfl

theorem term_of_open_here (h : caret.ahead.head? = some '(') : term form caret = form caret := by
  have hskip := Caret.skip_eq_self caret h (p := isBlank) (by decide)
  rw [term_of_open (by rw [hskip, h]), hskip]

theorem term_of_word (h : (caret.skip isBlank).ahead.head? = some c) (hc : c ≠ '(') :
    term form caret = (word >>= fun name => pure (.atom name)) (caret.skip isBlank) := by
  unfold term
  rw [bind_ok (skipBlanks_eq caret), bind_ok (peek_eq _), h]
  simp only [hc, if_false]

theorem term_eq_ok_iff {f : Formula} :
    term form caret = .ok f after ↔
      ((caret.skip isBlank).ahead.head? = some '(' ∧ form (caret.skip isBlank) = .ok f after) ∨
        ∃ c name, (caret.skip isBlank).ahead.head? = some c ∧ c ≠ '(' ∧
          word (caret.skip isBlank) = .ok name after ∧ .atom name = f := by
  cases h : (caret.skip isBlank).ahead.head? with
  | none => simp [term_of_end h]
  | some c =>
    by_cases hc : c = '('
    · subst hc
      simp [term_of_open h]
    · simp only [term_of_word h hc, bind_eq_ok_iff, pure_eq_ok_iff, Option.some.injEq, hc,
        false_and, false_or]
      constructor
      · intro hread
        obtain ⟨name, between, hword, rfl, rfl⟩ := hread
        exact ⟨c, name, rfl, hc, hword, rfl⟩
      · intro hread
        obtain ⟨_, name, rfl, _, hword, rfl⟩ := hread
        exact ⟨name, after, hword, rfl, rfl⟩

/-- In front of a closing parenthesis a formula is an atom without a name. -/
theorem term_of_close (h : (caret.skip isBlank).ahead.head? = some ')') :
    term form caret = .ok (.atom "") (caret.skip isBlank) := by
  have hskip := Caret.skip_eq_self (p := isWordChar) (caret.skip isBlank) h (by decide)
  obtain ⟨rest, hahead⟩ := List.head?_eq_some_iff.1 h
  have hword : word (caret.skip isBlank) = .ok "" (caret.skip isBlank) := by
    rw [word_eq_ok_iff, hskip, hahead]
    exact ⟨by rw [List.takeWhile_cons_of_neg (by decide)], rfl, endsWord_close rest⟩
  rw [term_of_word h (by decide), bind_ok hword]
  rfl

end

/-- Where a formula can start, a word without characters stands in front of a closing
parenthesis. -/
theorem word_spelled {name : String} {c : Char}
    (h : word (caret.skip isBlank) = .ok name after)
    (hc : (caret.skip isBlank).ahead.head? = some c) :
    (∀ d ∈ name.toList, isWordChar d = true) ∧ (name = "" → after.ahead.head? = some ')') := by
  obtain ⟨rfl, rfl, hends⟩ := word_eq_ok_iff.1 h
  rw [String.toList_ofList]
  refine ⟨fun d hd => List.all_eq_true.1 List.all_takeWhile d hd, fun hempty => ?_⟩
  have hword : isWordChar c = false := by
    rw [Bool.eq_false_iff]
    intro hrun
    have hnil := String.ofList_injective hempty
    cases hahead : (caret.skip isBlank).ahead with
    | nil =>
      rw [hahead] at hc
      cases hc
    | cons d ahead =>
      rw [hahead] at hc hnil
      cases hc
      simp [hrun] at hnil
  rw [Caret.skip_eq_self _ hc hword] at hends ⊢
  rcases hends c hc with rfl | hblank
  · exact hc
  · rw [Caret.head?_skip hc] at hblank
    cases hblank

/-! ## Reading a text -/

/-- The reader reads the text in front of the rest and gives `a`, wherever it starts. -/
def Reads (r : Reader α) (text rest : List Char) (a : α) : Prop :=
  ∀ passed, r ⟨passed, text ++ rest⟩ = .ok a ⟨text.reverse ++ passed, rest⟩

theorem reads_word {name : String} {rest : List Char}
    (hname : ∀ c ∈ name.toList, isWordChar c = true) (hrest : EndsWord rest) :
    Reads word name.toList rest name := by
  intro passed
  rw [word_eq_ok_iff, takeWhile_append hname hrest.isWordChar_head,
    Caret.skip_append hname hrest.isWordChar_head]
  exact ⟨String.ofList_toList, rfl, hrest⟩

/-- An atom without a name needs a closing parenthesis behind it. -/
theorem head_name {name : String} {rest : List Char}
    (hname : ∀ c ∈ name.toList, isWordChar c = true)
    (hstart : name ≠ "" ∨ rest.head? = some ')') :
    ∃ c, (name.toList ++ rest).head? = some c ∧ isBlank c = false ∧ c ≠ '(' := by
  cases hlist : name.toList with
  | nil =>
    rcases hstart with hne | hclose
    · exact absurd (String.toList_eq_nil_iff.1 hlist) hne
    · exact ⟨')', hclose, by decide, by decide⟩
  | cons c cs =>
    rw [hlist] at hname
    have hc := hname c List.mem_cons_self
    refine ⟨c, rfl, ?_, ?_⟩
    · rw [Bool.eq_false_iff]
      intro hblank
      rw [isWordChar_of_isBlank hblank] at hc
      cases hc
    · rintro rfl
      revert hc
      decide

theorem reads_term_atom {form : Reader Formula} {name : String} {rest : List Char}
    (hname : ∀ c ∈ name.toList, isWordChar c = true) (hrest : EndsWord rest)
    (hstart : name ≠ "" ∨ rest.head? = some ')') :
    Reads (term form) name.toList rest (.atom name) := by
  intro passed
  obtain ⟨c, hc, hblank, hopen⟩ := head_name hname hstart
  have hskip := Caret.skip_eq_self ⟨passed, name.toList ++ rest⟩ hc hblank
  rw [term_eq_ok_iff, hskip]
  exact .inr ⟨c, name, hc, hopen, reads_word hname hrest passed, rfl⟩

/-- Where a form starts, reading a formula is reading a form. -/
theorem reads_term_form {form : Reader Formula} {f : Formula} {text rest : List Char} :
    Reads (term form) ('(' :: text) rest f ↔ Reads form ('(' :: text) rest f := by
  refine forall_congr' fun passed => ?_
  have hskip := Caret.skip_eq_self (p := isBlank) ⟨passed, '(' :: text ++ rest⟩ rfl (by decide)
  rw [term_eq_ok_iff, hskip]
  simp

/-- Blanks in front of a formula are skipped. -/
theorem Reads.blanks {form : Reader Formula} {f : Formula} {blanks text rest : List Char}
    (hblanks : ∀ c ∈ blanks, isBlank c = true) (h : Reads (term form) text rest f) :
    Reads (term form) (blanks ++ text) rest f := by
  intro passed
  have hskip : Caret.skip isBlank ⟨passed, blanks ++ text ++ rest⟩ =
      Caret.skip isBlank ⟨blanks.reverse ++ passed, text ++ rest⟩ := by
    simp [Caret.skip, List.takeWhile_append_of_pos hblanks, List.dropWhile_append_of_pos hblanks,
      List.reverseAux_eq]
  have hterm := h (blanks.reverse ++ passed)
  rw [term_eq_ok_iff] at hterm ⊢
  rw [hskip]
  simpa using hterm

theorem Reads.blank {form : Reader Formula} {f : Formula} {text rest : List Char}
    (h : Reads (term form) text rest f) : Reads (term form) (' ' :: text) rest f :=
  @Reads.blanks form f [' '] text rest (List.forall_mem_singleton.2 (by decide)) h

end Reader

end Consequence
