import Consequence.Proofs.PrefixSteps

/-!
# How far readers move

A reader that succeeds has read a stretch of its line, and the caret stands behind it.

* `Reader.moves_term`: where no closing parenthesis stands, a formula takes a character that is not a
  blank. So the rounds of a form, as many as there are characters, are never used up.
-/

set_option autoImplicit false

namespace Consequence

namespace Reader

variable {caret after opened : Caret} {form : Reader Formula} {f : Formula} {fs : List Formula}
  {done : Array Formula} {limit rounds room : Nat}

theorem moves_word {name : String} (h : word caret = .ok name after) :
    caret.Moves name.toList after := by
  obtain ⟨rfl, rfl, -⟩ := word_eq_ok_iff.1 h
  rw [String.toList_ofList]
  exact caret.moves_skip isWordChar

/-- Forms are read from their parenthesis on. -/
def Advances (form : Reader Formula) : Prop :=
  ∀ caret f after, caret.ahead.head? = some '(' → form caret = .ok f after →
    ∃ text, caret.Moves ('(' :: text) after

theorem moves_term (hform : Advances form) (h : term form caret = .ok f after) :
    ∃ text, caret.Moves text after ∧
      ((caret.skip isBlank).ahead.head? ≠ some ')' → ∃ c ∈ text, isBlank c = false) := by
  have hskip := caret.moves_skip isBlank
  rcases term_eq_ok_iff.1 h with ⟨hopen, hf⟩ | ⟨c, name, hc, -, hword, rfl⟩
  · obtain ⟨text, hmoves⟩ := hform _ _ _ hopen hf
    exact ⟨_, hskip.trans hmoves, fun _ => ⟨'(', by simp, by decide⟩⟩
  · refine ⟨_, hskip.trans (moves_word hword), fun hclose => ?_⟩
    obtain ⟨hall, hempty⟩ := word_spelled hword hc
    -- a word without characters would stand in front of a closing parenthesis
    cases hname : name.toList with
    | nil =>
      have hmoves := moves_word hword
      rw [hname] at hmoves
      rw [hmoves.ahead] at hclose
      exact absurd (hempty (String.toList_eq_nil_iff.1 hname)) hclose
    | cons d ds =>
      have hd := hall d (by simp [hname])
      refine ⟨d, by simp, Bool.eq_false_iff.2 fun hblank => ?_⟩
      rw [isWordChar_of_isBlank hblank] at hd
      cases hd

theorem moves_operands (hform : Advances form)
    (h : operands form opened rounds done caret = .ok fs after) :
    ∃ text, caret.Moves text after := by
  induction rounds generalizing done caret with
  | zero => exact absurd h operands_zero_ne_ok
  | succ rounds ih =>
    have hskip := caret.moves_skip isBlank
    rcases operands_succ_eq_ok_iff.1 h with ⟨hclose, rfl, -⟩ | ⟨-, g, next, -, -, hterm, hrest⟩
    · exact ⟨_, hskip.trans (Caret.moves_advance hclose)⟩
    · obtain ⟨text, hmoves, -⟩ := moves_term hform hterm
      obtain ⟨others, hothers⟩ := ih hrest
      exact ⟨_, (hskip.trans hmoves).trans hothers⟩

theorem advances_prefixed : Advances (prefixed limit rounds room) := by
  induction room with
  | zero => exact fun _ _ _ _ h => absurd h prefixed_zero_ne_ok
  | succ room ih =>
    intro caret f after hopen h
    obtain ⟨name, -, stop, fs, hword, hoperands, -, -⟩ := prefixed_succ_eq_ok_iff.1 h
    obtain ⟨text, hmoves⟩ := moves_operands ih hoperands
    exact ⟨_, ((Caret.moves_advance hopen).trans (moves_word hword)).trans hmoves⟩

end Reader

end Consequence
