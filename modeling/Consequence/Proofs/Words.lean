import Consequence.Formula.Connective

/-!
# Words for connectives

A word names at most one connective, because two words for different connectives differ by more than the
case of their letters.

* `Connective.ofWord?_eq_some_iff`: in prefix form the words are those of `Connective.word`.
* `Connective.ofLink?_eq_some_iff`: between operands they are those of `Connective.linkWord`, and `if`.
-/

set_option autoImplicit false

namespace Consequence

variable {s t u : String}

theorem sameWord_iff : sameWord s t = true ↔ s.toList.map Char.toLower = t.toList.map Char.toLower := by
  rw [sameWord, beq_iff_eq]

theorem sameWord_refl (s : String) : sameWord s s = true :=
  sameWord_iff.2 rfl

theorem sameWord_trans_symm (h : sameWord s u = true) (h' : sameWord t u = true) :
    sameWord s t = true :=
  sameWord_iff.2 ((sameWord_iff.1 h).trans (sameWord_iff.1 h').symm)

namespace Connective

variable {op : Connective} {name : String}

theorem mem_all (op : Connective) : op ∈ all := by
  cases op <;> decide

/-- Different connectives have different words. -/
theorem eq_of_sameWord_word {other : Connective} (h : sameWord op.word other.word = true) :
    op = other := by
  cases op <;> cases other <;> first | rfl | exact absurd h (by decide)

/-- No connective has the word in prefix form that implication has between operands. -/
theorem not_sameWord_impl_word (op : Connective) : ¬ sameWord implies.linkWord op.word = true := by
  cases op <;> decide

theorem sameWord_of_ofWord? (h : ofWord? name = some op) : sameWord op.word name = true := by
  rw [ofWord?] at h
  have hword := List.find?_some h
  exact hword

/-- A word names the connective that has it, up to case. -/
theorem ofWord?_eq_some_iff : ofWord? name = some op ↔ sameWord op.word name = true := by
  refine ⟨sameWord_of_ofWord?, fun h => ?_⟩
  cases hfound : ofWord? name with
  | none =>
    rw [ofWord?, List.find?_eq_none] at hfound
    exact absurd h (hfound op op.mem_all)
  | some found =>
    rw [eq_of_sameWord_word (sameWord_trans_symm (sameWord_of_ofWord? hfound) h)]

theorem ofWord?_word (op : Connective) : ofWord? op.word = some op :=
  ofWord?_eq_some_iff.2 (sameWord_refl _)

/-- Between operands a word names the connective that has it there or, unless this is `not`, in prefix
form. -/
theorem ofLink?_eq_some_iff :
    ofLink? name = some op ↔
      op ≠ not ∧ (sameWord op.linkWord name = true ∨ sameWord op.word name = true) := by
  have hlinkWord : op = implies ∨ op.linkWord = op.word := by
    cases op <;> simp [linkWord]
  rw [ofLink?, show "impl" = implies.linkWord from rfl]
  by_cases himpl : sameWord implies.linkWord name = true
  · rw [if_pos himpl, Option.some.injEq]
    constructor
    · rintro rfl
      exact ⟨nofun, .inl himpl⟩
    · rintro ⟨-, hname⟩
      rcases hlinkWord with rfl | hlinkWord
      · rfl
      · rw [hlinkWord, or_self] at hname
        exact absurd (sameWord_trans_symm himpl hname) op.not_sameWord_impl_word
  · rw [if_neg himpl, Option.filter_eq_some_iff, ofWord?_eq_some_iff, decide_eq_true_iff, and_comm]
    rcases hlinkWord with rfl | hlinkWord
    · simp [himpl]
    · rw [hlinkWord, or_self]

theorem ofLink?_linkWord (hop : op ≠ not) : ofLink? op.linkWord = some op :=
  ofLink?_eq_some_iff.2 ⟨hop, .inl (sameWord_refl _)⟩

/-- No word between operands names `not`. -/
theorem ne_not_of_ofLink? (h : ofLink? name = some op) : op ≠ not :=
  (ofLink?_eq_some_iff.1 h).1

end Connective

end Consequence
