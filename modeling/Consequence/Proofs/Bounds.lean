import Consequence.Proofs.Reader

/-!
# How far readers with room reach

A reader does not go back in its line, and a form takes a parenthesis. So a form is refused only behind as
many parentheses as there was room for.

* `Reader.Bounded`: what came of reading; `Reader.bounded_bind`: so it is for two readers in sequence.
* `Reader.bounded_prefixed`, `Reader.bounded_grouped`: forms, by induction on the room.
-/

set_option autoImplicit false

namespace Consequence.Reader

variable {α β : Type} {r : Reader α} {f : α → Reader β} {caret after opened : Caret}
  {form : Reader Formula} {op? : Option Connective} {done : Array Formula} {limit rounds room : Nat}

/-- What came of reading where `room` more forms may be open: the text ahead has not grown, and a form
was refused only if there were more characters than that. -/
def Bounded (room : Nat) (caret : Caret) : EStateM.Result Failure Caret α → Prop
  | .ok _ after => after.ahead.length ≤ caret.ahead.length
  | .error (.tooDeep _ _) _ => room < caret.ahead.length
  | .error (.located _ _ _) _ => True

theorem Bounded.of_le {result : EStateM.Result Failure Caret α}
    (hle : after.ahead.length ≤ caret.ahead.length) (h : Bounded room after result) :
    Bounded room caret result := by
  match result, h with
  | .ok _ _, h => exact Nat.le_trans h hle
  | .error (.tooDeep _ _) _, h => exact Nat.lt_of_lt_of_le h hle
  | .error (.located _ _ _) _, _ => trivial

/-- A form takes a parenthesis, so inside it one form less is enough. -/
theorem Bounded.of_advance {result : EStateM.Result Failure Caret α} {c : Char}
    (hc : caret.ahead.head? = some c) (h : Bounded room caret.advance result) :
    Bounded (room + 1) caret result := by
  have hlength := (Caret.moves_advance hc).length_eq
  rw [List.length_singleton] at hlength
  match result, h with
  | .ok _ after, h =>
    have hle : after.ahead.length ≤ caret.advance.ahead.length := h
    show after.ahead.length ≤ caret.ahead.length
    omega
  | .error (.tooDeep _ _) _, h =>
    have hlt : room < caret.advance.ahead.length := h
    show room + 1 < caret.ahead.length
    omega
  | .error (.located _ _ _) _, _ => trivial

theorem bounded_bind (hr : Bounded room caret (r caret))
    (hf : ∀ a between, r caret = .ok a between → Bounded room between (f a between)) :
    Bounded room caret ((r >>= f) caret) := by
  cases hresult : r caret with
  | ok a between =>
    rw [bind_ok hresult]
    rw [hresult] at hr
    exact (hf a between hresult).of_le hr
  | error e after =>
    rw [bind_error hresult]
    rw [hresult] at hr
    cases e with
    | located cause start stop => trivial
    | tooDeep limit found => exact hr

theorem bounded_pure (a : α) : Bounded room caret ((pure a : Reader α) caret) :=
  Nat.le_refl caret.ahead.length

theorem bounded_skip : Bounded room caret (skipBlanks caret) :=
  caret.length_skip_le isBlank

theorem bounded_advance : Bounded room caret (advance caret) := by
  show caret.advance.ahead.length ≤ caret.ahead.length
  cases hc : caret.ahead.head? with
  | none => exact Nat.le_of_eq (by rw [Caret.advance_of_end hc])
  | some c => exact (Caret.moves_advance hc).length_le

theorem bounded_word : Bounded room caret (word caret) := by
  rcases word_cases caret with ⟨-, hword⟩ | ⟨c, -, -, hword⟩
  · rw [hword]
    exact caret.length_skip_le isWordChar
  · rw [hword]
    trivial

/-- Reading a form from its parenthesis on is bounded. -/
def BoundsForms (room : Nat) (form : Reader Formula) : Prop :=
  ∀ caret, caret.ahead.head? = some '(' → Bounded room caret (form caret)

theorem bounded_term (hform : BoundsForms room form) : Bounded room caret (term form caret) := by
  have hle := caret.length_skip_le isBlank
  cases hc : (caret.skip isBlank).ahead.head? with
  | none =>
    rw [term_of_end hc]
    trivial
  | some c =>
    by_cases hopen : c = '('
    · subst hopen
      rw [term_of_open hc]
      exact (hform _ hc).of_le hle
    · rw [term_of_word hc hopen]
      exact (bounded_bind bounded_word fun name _ _ => bounded_pure _).of_le hle

theorem bounded_operands (hform : BoundsForms room form) :
    Bounded room caret (operands form opened rounds done caret) := by
  induction rounds generalizing done caret with
  | zero => trivial
  | succ rounds ih =>
    rw [operands]
    refine bounded_bind bounded_skip fun _ _ _ => bounded_bind (Nat.le_refl _) fun c? _ _ => ?_
    cases c? with
    | none => trivial
    | some c =>
      by_cases hclose : c = ')'
      · simp only [hclose, if_true]
        exact bounded_bind bounded_advance fun _ _ _ => bounded_pure _
      · simp only [hclose, if_false]
        exact bounded_bind (bounded_term hform) fun _ _ _ => ih

theorem bounded_prefixed : BoundsForms room (prefixed limit rounds room) := by
  induction room with
  | zero => exact fun caret hopen => List.length_pos_of_mem (List.mem_of_mem_head? hopen)
  | succ room ih =>
    intro caret hopen
    rw [prefixed, bind_ok (get_eq caret), bind_ok (advance_eq _)]
    refine Bounded.of_advance hopen (bounded_bind (Nat.le_refl _) fun start _ _ => ?_)
    refine bounded_bind bounded_word fun name _ _ => bounded_bind (Nat.le_refl _) fun stop _ _ => ?_
    refine bounded_bind (bounded_operands ih) fun fs _ _ => ?_
    cases Connective.ofWord? name with
    | some op => exact bounded_pure _
    | none =>
      simp only
      split
      · trivial
      · trivial

theorem bounded_link {count : Nat} : Bounded room caret (link op? count caret) := by
  rw [link]
  refine bounded_bind (Nat.le_refl _) fun start _ _ => bounded_bind bounded_word fun name _ _ =>
    bounded_bind (Nat.le_refl _) fun stop _ _ => ?_
  cases Connective.ofLink? name with
  | none => trivial
  | some found =>
    cases hmixed : op?.filter (fun first => decide (first ≠ found)) with
    | some first =>
      simp only [hmixed]
      trivial
    | none =>
      simp only [hmixed]
      split
      · exact bounded_pure _
      · trivial

theorem bounded_links (hform : BoundsForms room form) :
    Bounded room caret (links form opened rounds op? done caret) := by
  induction rounds generalizing op? done caret with
  | zero => trivial
  | succ rounds ih =>
    rw [links]
    refine bounded_bind bounded_skip fun _ _ _ => bounded_bind (Nat.le_refl _) fun c? _ _ => ?_
    cases c? with
    | none => trivial
    | some c =>
      by_cases hclose : c = ')'
      · simp only [hclose, if_true]
        exact bounded_bind bounded_advance fun _ _ _ => bounded_pure _
      · simp only [hclose, if_false]
        exact bounded_bind bounded_link fun _ _ _ => bounded_bind (bounded_term hform) fun _ _ _ => ih

theorem bounded_close : Bounded room caret (close opened caret) := by
  rw [close]
  refine bounded_bind bounded_skip fun _ _ _ => bounded_bind (Nat.le_refl _) fun c? _ _ => ?_
  cases c? with
  | none => trivial
  | some c =>
    simp only
    split
    · exact bounded_advance
    · trivial

theorem bounded_grouped : BoundsForms room (grouped limit rounds room) := by
  induction room with
  | zero => exact fun caret hopen => List.length_pos_of_mem (List.mem_of_mem_head? hopen)
  | succ room ih =>
    intro caret hopen
    rw [grouped, bind_ok (get_eq caret), bind_ok (advance_eq _)]
    refine Bounded.of_advance hopen (bounded_bind bounded_skip fun _ start _ => ?_)
    rw [bind_ok (peek_eq start)]
    cases hc : start.ahead.head? with
    | none => trivial
    | some c =>
      by_cases hform : c = '('
      · simp only [hform, if_true]
        exact bounded_bind (ih start (by rw [hc, hform])) fun _ _ _ => bounded_links ih
      · simp only [hform, if_false]
        refine bounded_bind bounded_word fun name _ _ => ?_
        split
        · exact bounded_bind (bounded_term ih) fun _ _ _ =>
            bounded_bind bounded_close fun _ _ _ => bounded_pure _
        · exact bounded_links ih

end Consequence.Reader
