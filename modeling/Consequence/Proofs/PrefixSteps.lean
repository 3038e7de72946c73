import Consequence.Proofs.Nesting
import Consequence.Proofs.NormalForm

/-!
# Steps of the prefix reader

What each reader of the prefix syntax reads when it succeeds.

* `Reader.operands_succ_eq_ok_iff`: a form closes or goes on with an operand.
* `Reader.prefixed_succ_eq_ok_iff`: a form starts with the word of its connective.
* `Reader.clause_of_close`: a clause in front of a closing parenthesis.
* `Reader.depth_clause`: what is read is nested no deeper than the limit.
-/

set_option autoImplicit false

namespace Consequence.Reader

variable {caret after opened : Caret} {form : Reader Formula} {f : Formula} {fs : List Formula}
  {done : Array Formula} {limit rounds room : Nat}

theorem operands_zero_ne_ok : operands form opened 0 done caret ≠ .ok fs after :=
  unclosed_ne_ok

theorem operands_of_end (h : (caret.skip isBlank).ahead.head? = none) :
    operands form opened (rounds + 1) done caret = unclosed opened (caret.skip isBlank) := by
  rw [operands, bind_ok (skipBlanks_eq caret), bind_ok (peek_eq _), h]

theorem operands_of_close (h : (caret.skip isBlank).ahead.head? = some ')') :
    operands form opened (rounds + 1) done caret = .ok done.toList (caret.skip isBlank).advance := by
  rw [operands, bind_ok (skipBlanks_eq caret), bind_ok (peek_eq _), h]
  rfl

theorem operands_of_operand {c : Char} (h : (caret.skip isBlank).ahead.head? = some c)
    (hc : c ≠ ')') :
    operands form opened (rounds + 1) done caret =
      (term form >>= fun g => operands form opened rounds (done.push g)) (caret.skip isBlank) := by
  rw [operands, bind_ok (skipBlanks_eq caret), bind_ok (peek_eq _), h]
  simp only [hc, if_false]

theorem operands_succ_eq_ok_iff :
    operands form opened (rounds + 1) done caret = .ok fs after ↔
      ((caret.skip isBlank).ahead.head? = some ')' ∧ (caret.skip isBlank).advance = after ∧
        done.toList = fs) ∨
      ∃ c g next, (caret.skip isBlank).ahead.head? = some c ∧ c ≠ ')' ∧
        term form (caret.skip isBlank) = .ok g next ∧
        operands form opened rounds (done.push g) next = .ok fs after := by
  cases h : (caret.skip isBlank).ahead.head? with
  | none => simp [operands_of_end h, unclosed_ne_ok]
  | some c =>
    by_cases hc : c = ')'
    · subst hc
      simp [operands_of_close h, and_comm]
    · rw [operands_of_operand h hc]
      simp [hc, bind_eq_ok_iff]

theorem prefixed_zero_ne_ok : prefixed limit rounds 0 caret ≠ .ok f after := by
  intro h
  cases h

theorem prefixed_succ_eq_ok_iff :
    prefixed limit rounds (room + 1) caret = .ok f after ↔
      ∃ name op stop fs, word caret.advance = .ok name stop ∧
        operands (prefixed limit rounds room) caret rounds #[] stop = .ok fs after ∧
        Connective.ofWord? name = some op ∧ .node op fs = f := by
  rw [prefixed]
  rw [bind_ok (get_eq caret), bind_ok (advance_eq _), bind_ok (get_eq _), bind_eq_ok_iff]
  constructor
  · intro h
    obtain ⟨name, stop, hword, h⟩ := h
    rw [bind_ok (get_eq stop), bind_eq_ok_iff] at h
    obtain ⟨fs, last, hoperands, h⟩ := h
    cases hop : Connective.ofWord? name with
    | none =>
      simp only [hop] at h
      split at h
      · exact absurd h fail_ne_ok
      · exact absurd h fail_ne_ok
    | some op =>
      simp only [hop] at h
      obtain ⟨hf, rfl⟩ := pure_eq_ok_iff.1 h
      exact ⟨name, op, stop, fs, hword, hoperands, hop, hf⟩
  · intro h
    obtain ⟨name, op, stop, fs, hword, hoperands, hop, rfl⟩ := h
    refine ⟨name, stop, hword, ?_⟩
    rw [bind_ok (get_eq stop), bind_ok hoperands, hop]
    rfl

theorem clause_eq_ok_iff :
    clause limit caret = .ok f after ↔
      ∃ last, formula limit caret = .ok f last ∧ last.skip isBlank = after := by
  unfold clause
  rw [bind_eq_ok_iff]
  constructor
  · intro h
    obtain ⟨g, last, hformula, h⟩ := h
    rw [bind_ok (skipBlanks_eq last), pure_eq_ok_iff] at h
    obtain ⟨rfl, hafter⟩ := h
    exact ⟨last, hformula, hafter⟩
  · intro h
    obtain ⟨last, hformula, rfl⟩ := h
    exact ⟨f, last, hformula, rfl⟩

/-- In front of a closing parenthesis a clause is an atom without a name. -/
theorem clause_of_close (h : (caret.skip isBlank).ahead.head? = some ')') :
    clause limit caret = .ok (.atom "") (caret.skip isBlank) := by
  rw [clause_eq_ok_iff]
  exact ⟨_, by rw [formula_eq, term_of_close h], Caret.skip_eq_self _ h (by decide)⟩

/-! ## Depth -/

/-- What is read nests no deeper than its forms. -/
theorem depth_term (hform : ∀ caret f after, form caret = .ok f after → f.depth ≤ room)
    (h : term form caret = .ok f after) : f.depth ≤ room := by
  rcases term_eq_ok_iff.1 h with ⟨_, hf⟩ | ⟨_, name, _, _, _, rfl⟩
  · exact hform _ _ _ hf
  · simp [Formula.depth]

theorem depth_operands (hform : ∀ caret f after, form caret = .ok f after → f.depth ≤ room)
    (hdone : ∀ g ∈ done.toList, g.depth ≤ room)
    (h : operands form opened rounds done caret = .ok fs after) : ∀ g ∈ fs, g.depth ≤ room := by
  induction rounds generalizing done caret with
  | zero => exact absurd h operands_zero_ne_ok
  | succ rounds ih =>
    rcases operands_succ_eq_ok_iff.1 h with ⟨_, _, rfl⟩ | ⟨_, g, _, _, _, hterm, hrest⟩
    · exact hdone
    · refine ih ?_ hrest
      rw [Array.toList_push]
      intro k hk
      rcases List.mem_append.1 hk with hk | hk
      · exact hdone k hk
      · rw [List.mem_singleton.1 hk]
        exact depth_term hform hterm

theorem depth_prefixed (h : prefixed limit rounds room caret = .ok f after) : f.depth ≤ room := by
  induction room generalizing caret f after with
  | zero => exact absurd h prefixed_zero_ne_ok
  | succ room ih =>
    obtain ⟨_, op, _, fs, _, hoperands, _, rfl⟩ := prefixed_succ_eq_ok_iff.1 h
    exact Formula.depth_node_le_iff.2 (depth_operands (fun _ _ _ => ih) (by simp) hoperands)

theorem depth_clause (h : clause limit caret = .ok f after) : f.depth ≤ limit := by
  obtain ⟨last, hformula, _⟩ := clause_eq_ok_iff.1 h
  rw [formula_eq] at hformula
  exact depth_term (fun _ _ _ => depth_prefixed) hformula

end Consequence.Reader
