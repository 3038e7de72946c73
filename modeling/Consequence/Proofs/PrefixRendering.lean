import Consequence.Formula.Forms
import Consequence.Proofs.Denotation
import Consequence.Proofs.Words

/-!
# Prefix forms are read

The prefix form of a formula denotes the formula, whatever the operand counts are, if its symbols are
words. So it is read back in front of anything that ends a word.

* `Formula.denotes_prefixForm`: every formula, by induction on it.
* `Formula.firstFormula_prefixForm`: a line that starts with a prefix form.
-/

set_option autoImplicit false

namespace Consequence

namespace Connective

theorem isWordChar_word (op : Connective) : ∀ c ∈ op.word.toList, isWordChar c = true := by
  rw [← List.all_eq_true]
  cases op <;> decide +kernel

end Connective

namespace Formula

/-- The operands of a form, each behind a blank. -/
def spaced (fs : List Formula) : List Char :=
  fs.flatMap fun f => ' ' :: f.prefixForm

theorem spaced_cons (f : Formula) (fs : List Formula) :
    spaced (f :: fs) = ' ' :: (f.prefixForm ++ spaced fs) := by
  simp [spaced]

theorem prefixForm_atom (name : String) : (atom name).prefixForm = name.toList := by
  rw [prefixForm]

theorem prefixForm_node (op : Connective) (fs : List Formula) :
    (node op fs).prefixForm = '(' :: (op.word.toList ++ (spaced fs ++ [')'])) := by
  rw [prefixForm]
  simp [spaced]

theorem endsWord_spaced (fs : List Formula) (rest : List Char) :
    EndsWord (spaced fs ++ [')'] ++ rest) := by
  cases fs with
  | nil => exact endsWord_close rest
  | cons f fs =>
    rw [spaced_cons]
    exact endsWord_blank (by decide) _

/-- The prefix form of a formula whose symbols are words denotes the formula. -/
theorem denotes_prefixForm {f : Formula} (hnamed : f.Named) : Denotes f.prefixForm f := by
  induction f using induct with
  | atom name =>
    rw [prefixForm_atom]
    exact .atom (named_atom_iff.1 hnamed)
  | node op fs ih =>
    rw [named_node_iff] at hnamed
    have hoperands : DenotesOperands Denotes (spaced fs ++ [')']) fs := by
      induction fs with
      | nil => exact @DenotesOperands.close Denotes [] (by simp)
      | cons f fs ihs =>
        rw [List.forall_mem_cons] at hnamed ih
        have hends : EndsWord (spaced fs ++ [')']) := by simpa using endsWord_spaced fs []
        rw [show spaced (f :: fs) ++ [')'] = [' '] ++ (f.prefixForm ++ (spaced fs ++ [')'])) by
          simp [spaced_cons]]
        exact .operand (List.forall_mem_singleton.2 (by decide)) (ih.1 hnamed.1) hends.stopsAt
          (ihs ih.2 hnamed.2)
    rw [prefixForm_node]
    exact .node op.isWordChar_word op.ofWord?_word (by simpa using endsWord_spaced fs []) hoperands

/-- A prefix form is the first formula of its line, behind any blanks and in front of anything that ends a
word. -/
theorem firstFormula_prefixForm {f : Formula} {left right unread : List Char}
    (hleft : ∀ c ∈ left, isBlank c = true) (hright : ∀ c ∈ right, isBlank c = true) (hnamed : f.Named)
    (hends : EndsWord (right ++ unread)) (hunread : ∀ c ∈ unread.head?, isBlank c = false) :
    FirstFormula f (left ++ f.prefixForm ++ right ++ unread) (left ++ f.prefixForm ++ right) unread where
  line_eq := rfl
  kept_eq := ⟨left, f.prefixForm, right, List.append_assoc _ _ _, hleft, denotes_prefixForm hnamed, hright,
    hends.stopsAt⟩
  head?_unread := hunread

/-- Between blanks it is all of its line. -/
theorem firstFormula_whole {f : Formula} {left right : List Char} (hleft : ∀ c ∈ left, isBlank c = true)
    (hright : ∀ c ∈ right, isBlank c = true) (hnamed : f.Named) :
    FirstFormula f (left ++ f.prefixForm ++ right) (left ++ f.prefixForm ++ right) [] := by
  have hends : EndsWord (right ++ []) := by
    rw [List.append_nil]
    exact endsWord_of_blank hright
  simpa using f.firstFormula_prefixForm hleft hright hnamed hends (by simp)

/-- A prefix form starts with a character that is no blank, no comment sign and closes nothing. -/
theorem head_prefixForm {f : Formula} (hnamed : f.Named) :
    ∃ c text, f.prefixForm = c :: text ∧ isBlank c = false ∧ c ≠ ')' ∧ c ≠ '#' :=
  (denotes_prefixForm hnamed).eq_cons

end Formula

end Consequence
