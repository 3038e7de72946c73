import Consequence.Formula.WellFormed
import Consequence.Text.Blank

/-!
# Characters that end words

* `isWordChar_of_isBlank`: no blank is a letter or a digit.
* `Connective.isWordChar_linkWord`: connectives are named by words.
* `word_append_inj`: a word is told from what follows it.
* `length_le_flatMap`: texts one after the other have enough characters to count them.
-/

set_option autoImplicit false

namespace Consequence

/-- The code points of blanks. -/
def blankCodes : List Nat := [
  0x20, 0x09, 0x0A, 0x0B, 0x0C, 0x0D, 0x85, 0xA0, 0x1680, 0x2000, 0x2001, 0x2002, 0x2003, 0x2004,
  0x2005, 0x2006, 0x2007, 0x2008, 0x2009, 0x200A, 0x2028, 0x2029, 0x202F, 0x205F, 0x3000]

theorem mem_blankCodes {c : Char} (h : isBlank c = true) : c.toNat ∈ blankCodes := by
  simp only [isBlank, Bool.or_eq_true, Bool.and_eq_true, decide_eq_true_eq, beq_iff_eq,
    ← UInt32.toNat_inj, UInt32.le_iff_toNat_le, UInt32.reduceToNat] at h
  simp only [Char.toNat, blankCodes, List.mem_cons, List.not_mem_nil, or_false]
  omega

/-- A blank ends a word. -/
theorem isWordChar_of_isBlank {c : Char} (h : isBlank c = true) : isWordChar c = false := by
  have hcodes : ∀ n ∈ blankCodes, isWordChar (Char.ofNat n) = false := by decide +kernel
  rw [← Char.ofNat_toNat c]
  exact hcodes _ (mem_blankCodes h)

theorem Connective.isWordChar_linkWord (op : Connective) :
    ∀ c ∈ op.linkWord.toList, isWordChar c = true := by
  rw [← List.all_eq_true]
  cases op <;> decide +kernel

/-! ## Where words end -/

/-- A word ends in front of this text: at a closing parenthesis, at a blank or at its end. -/
def EndsWord (rest : List Char) : Prop :=
  ∀ c ∈ rest.head?, c = ')' ∨ isBlank c = true

theorem endsWord_nil : EndsWord [] := by
  simp [EndsWord]

theorem endsWord_close (rest : List Char) : EndsWord (')' :: rest) := by
  simp [EndsWord]

theorem endsWord_blank {c : Char} (hc : isBlank c = true) (rest : List Char) :
    EndsWord (c :: rest) := by
  simp [EndsWord, hc]

theorem endsWord_of_blank {rest : List Char} (h : ∀ c ∈ rest, isBlank c = true) : EndsWord rest :=
  fun c hc => .inr (h c (List.mem_of_mem_head? hc))

theorem EndsWord.isWordChar_head {rest : List Char} (h : EndsWord rest) :
    ∀ c ∈ rest.head?, isWordChar c = false := by
  intro c hc
  rcases h c hc with rfl | hblank
  · decide
  · exact isWordChar_of_isBlank hblank

/-! ## Runs of characters -/

section
variable {p : Char → Bool} {text rest : List Char}

theorem takeWhile_append (htext : ∀ c ∈ text, p c = true) (hrest : ∀ c ∈ rest.head?, p c = false) :
    (text ++ rest).takeWhile p = text := by
  rw [List.takeWhile_append_of_pos htext]
  cases rest with
  | nil => simp
  | cons c rest => simp [hrest c rfl]

theorem dropWhile_append (htext : ∀ c ∈ text, p c = true) (hrest : ∀ c ∈ rest.head?, p c = false) :
    (text ++ rest).dropWhile p = rest := by
  rw [List.dropWhile_append_of_pos htext]
  cases rest with
  | nil => rfl
  | cons c rest => simp [hrest c rfl]

/-- Texts that are not empty, one after the other, are no more than their characters, and none is
longer than the whole. -/
theorem length_le_flatMap {α : Type} {write : α → List Char} (h : ∀ x, 0 < (write x).length)
    (xs : List α) :
    xs.length ≤ (xs.flatMap write).length ∧
      ∀ x ∈ xs, (write x).length ≤ (xs.flatMap write).length := by
  induction xs with
  | nil => simp
  | cons x xs ih =>
    obtain ⟨hlength, hall⟩ := ih
    have hx := h x
    rw [List.flatMap_cons, List.length_append, List.length_cons]
    refine ⟨by omega, List.forall_mem_cons.2 ⟨by omega, fun y hy => ?_⟩⟩
    have := hall y hy
    omega

end

/-- A run of symbol characters is told from what ends it. -/
theorem word_append_inj {s t rest other : List Char} (hs : ∀ c ∈ s, isWordChar c = true)
    (ht : ∀ c ∈ t, isWordChar c = true) (hrest : EndsWord rest) (hother : EndsWord other)
    (h : s ++ rest = t ++ other) : s = t ∧ rest = other := by
  have hrun := congrArg (List.takeWhile isWordChar) h
  rw [takeWhile_append hs hrest.isWordChar_head, takeWhile_append ht hother.isWordChar_head] at hrun
  subst hrun
  exact ⟨rfl, List.append_cancel_left h⟩

end Consequence
