import Consequence.Proofs.Reader

/-!
# The prefix syntax in one pass

`Scan.clause` reads a line of the prefix syntax from left to right, each character once, with a stack
of the forms that are open.

* `Scan.step`: what a character does, `Scan.finish`: what the end of the line does.
* `Scan.scan_step`, `Scan.scan_end`: the scan from a caret on, by one character.
* `Scan.scan_word`: the scan takes up a word like the word reader and goes on behind it.
-/

set_option autoImplicit false

namespace Consequence

namespace Scan

/-! ## The scan -/

/-- A form that is open: the byte in front of its parenthesis, its word and its operands so far. -/
structure OpenForm where
  opened : Nat
  name : String
  operands : List Formula

/-- What the scan stands in: a gap between tokens, or a word with these characters so far, last first.
The word is that of a form that opened at a byte, or else a symbol. -/
inductive Phase where
  | gap
  | word (opened? : Option Nat) (chars : List Char)

/-- What a scan ends with: a formula or a failure, and the caret where it stops. -/
abbrev Outcome := EStateM.Result Failure Caret Formula

/-- A character is read and the scan goes on, or it ends. -/
inductive Move where
  | on (phase : Phase) (stack : List OpenForm)
  | stop (outcome : Outcome)

/-- A formula that was read is the next operand of the innermost form, or else all there is. -/
def hand (f : Formula) : List OpenForm → Formula ⊕ List OpenForm
  | [] => .inl f
  | form :: outer => .inr ({ form with operands := form.operands ++ [f] } :: outer)

/-- Where a word ends, it is an atom or it begins a form. -/
def Phase.settle : Phase → List OpenForm → Formula ⊕ List OpenForm
  | gap, stack => .inr stack
  | word none chars, stack => hand (.atom (String.ofList chars.reverse)) stack
  | word (some opened) chars, stack => .inr (⟨opened, String.ofList chars.reverse, []⟩ :: stack)

/-- What a form is when it closes. Only then is its word looked up. -/
def OpenForm.close (form : OpenForm) : Except Failure Formula :=
  match Connective.ofWord? form.name with
  | some op => .ok (.node op form.operands)
  | none =>
    if form.name = "" then .error (.located .missingConnective form.opened (form.opened + 1))
    else .error (.located (.unknownConnective form.name) (form.opened + 1)
      (form.opened + 1 + byteLength form.name.toList))

/-- A character that no word may hold. -/
def refuse (caret : Caret) (c : Char) : Outcome :=
  .error (.located (.unexpectedChar c) caret.position (caret.position + c.utf8Size)) caret

/-- A character that is met in a gap. -/
def meet (limit : Nat) (stack : List OpenForm) (caret : Caret) (c : Char) : Move :=
  if isBlank c then .on .gap stack
  else if c = '(' then
    if stack.length < limit then .on (.word (some caret.position) []) stack
    else .stop (.error (.tooDeep limit (stack.length + 1)) caret)
  else if c = ')' then
    match stack with
    | [] => .stop (.ok (.atom "") caret)
    | form :: outer =>
      match form.close with
      | .error e => .stop (.error e caret.advance)
      | .ok f =>
        match hand f outer with
        | .inl f => .stop (.ok f caret.advance)
        | .inr stack => .on .gap stack
  else if isWordChar c then .on (.word none [c]) stack
  else .stop (refuse caret c)

/-- What the character `c` behind the caret does. -/
def step (limit : Nat) (caret : Caret) (c : Char) : Phase → List OpenForm → Move
  | .gap, stack => meet limit stack caret c
  | .word opened? chars, stack =>
    if isWordChar c then .on (.word opened? (c :: chars)) stack
    else if c = ')' || isBlank c then
      match (Phase.word opened? chars).settle stack with
      | .inl f => .stop (.ok f caret)
      | .inr stack => meet limit stack caret c
    else .stop (refuse caret c)

/-- What the end of the line does. -/
def finish (caret : Caret) (phase : Phase) (stack : List OpenForm) : Outcome :=
  match phase.settle stack with
  | .inl f => .ok f caret
  | .inr [] => .error (.located .missingFormula caret.position caret.position) caret
  | .inr (form :: _) => .error (.located .unclosedForm form.opened caret.position) caret

/-- Scans the characters ahead, behind those that were passed. -/
def run (limit : Nat) : (passed : List Char) → Phase → List OpenForm → (ahead : List Char) → Outcome
  | passed, phase, stack, [] => finish ⟨passed, []⟩ phase stack
  | passed, phase, stack, c :: ahead =>
    match step limit ⟨passed, c :: ahead⟩ c phase stack with
    | .on phase stack => run limit (c :: passed) phase stack ahead
    | .stop outcome => outcome

/-- Scans one formula from the caret on, and the blanks behind it. -/
def clause (limit : Nat) (caret : Caret) : Outcome :=
  match run limit caret.passed .gap [] caret.ahead with
  | .ok f after => .ok f (after.skip isBlank)
  | .error e after => .error e after

/-! ## Single steps -/

variable {limit : Nat} {caret : Caret} {stack : List OpenForm}

/-- The scan from a caret on. -/
def scan (limit : Nat) (phase : Phase) (stack : List OpenForm) : Reader Formula := fun caret =>
  run limit caret.passed phase stack caret.ahead

theorem scan_end (phase : Phase) (h : caret.ahead.head? = none) :
    scan limit phase stack caret = finish caret phase stack := by
  obtain ⟨passed, ahead⟩ := caret
  obtain rfl := List.head?_eq_none_iff.1 h
  rfl

theorem scan_step (phase : Phase) {c : Char} (h : caret.ahead.head? = some c) :
    scan limit phase stack caret =
      match step limit caret c phase stack with
      | .on phase stack => scan limit phase stack caret.advance
      | .stop outcome => outcome := by
  obtain ⟨passed, ahead⟩ := caret
  obtain ⟨rest, rfl⟩ := List.head?_eq_some_iff.1 h
  rfl

/-- What the scan gives once a formula is all there is or the forms of a stack are open. -/
def goOn (limit : Nat) : Formula ⊕ List OpenForm → Reader Formula
  | .inl f => fun caret => .ok f caret
  | .inr stack => scan limit .gap stack

theorem scan_gap_skip : scan limit .gap stack caret = scan limit .gap stack (caret.skip isBlank) := by
  obtain ⟨passed, ahead⟩ := caret
  induction ahead generalizing passed with
  | nil => rfl
  | cons c ahead ih =>
    by_cases hc : isBlank c = true
    · rw [scan_step _ rfl]
      simp only [step, meet, hc, if_true, Caret.advance]
      simpa [Caret.skip, hc] using ih (c :: passed)
    · rw [Caret.skip_eq_self _ rfl (Bool.eq_false_iff.2 hc)]

theorem scan_word_of_endsWord {opened? : Option Nat} {chars : List Char}
    (h : EndsWord caret.ahead) :
    scan limit (.word opened? chars) stack caret =
      goOn limit ((Phase.word opened? chars).settle stack) caret := by
  cases hc : caret.ahead.head? with
  | none =>
    rw [scan_end _ hc, finish]
    cases hsettle : (Phase.word opened? chars).settle stack with
    | inl f => rfl
    | inr stack => exact (scan_end .gap hc).symm
  | some c =>
    have hword := h.isWordChar_head c hc
    have hends : (c = ')' || isBlank c) = true := by simpa using h c hc
    rw [scan_step _ hc]
    simp only [step, hword, hends, if_true, Bool.false_eq_true, if_false]
    cases hsettle : (Phase.word opened? chars).settle stack with
    | inl f => rfl
    | inr stack => exact (scan_step .gap hc).symm

theorem scan_word_skip {opened? : Option Nat} {chars : List Char} :
    scan limit (.word opened? chars) stack caret =
      scan limit (.word opened? ((caret.ahead.takeWhile isWordChar).reverse ++ chars)) stack
        (caret.skip isWordChar) := by
  obtain ⟨passed, ahead⟩ := caret
  induction ahead generalizing passed chars with
  | nil => rfl
  | cons c ahead ih =>
    by_cases hc : isWordChar c = true
    · rw [scan_step _ rfl]
      simp only [step, hc, if_true, Caret.advance]
      simpa [Caret.skip, hc] using @ih (c :: chars) (c :: passed)
    · simp [Caret.skip, hc]

/-- The scan of a word refuses the character that the word reader refuses. -/
theorem scan_word {opened? : Option Nat} :
    scan limit (.word opened? []) stack caret =
      (Reader.word >>= fun name =>
        goOn limit ((Phase.word opened? name.toList.reverse).settle stack)) caret := by
  rw [scan_word_skip, List.append_nil]
  rcases Reader.word_cases caret with ⟨hends, hword⟩ | ⟨c, hc, hnot, hword⟩
  · rw [bind_ok hword, scan_word_of_endsWord hends, String.toList_ofList]
  · have hwordChar : isWordChar c = false := Caret.head?_skip hc
    rw [bind_error hword, scan_step _ hc]
    simp [step, hwordChar, hnot, refuse]

/-- Where neither a form starts nor the innermost one ends, a symbol is scanned. -/
theorem scan_gap_of_word {c : Char} (h : caret.ahead.head? = some c) (hblank : isBlank c = false)
    (hopen : c ≠ '(') (hclose : c = ')' → stack = []) :
    scan limit .gap stack caret = scan limit (.word none []) stack caret := by
  rw [scan_step _ h, scan_step _ h]
  by_cases hc : c = ')'
  · obtain rfl := hclose hc
    subst hc
    have hword : isWordChar ')' = false := by decide
    simp [step, meet, Phase.settle, hand, hblank, hword]
  · cases hword : isWordChar c <;> simp [step, meet, hblank, hopen, hc, hword]

end Scan

end Consequence
