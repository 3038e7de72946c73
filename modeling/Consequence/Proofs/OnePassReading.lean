import Consequence.Proofs.Movement
import Consequence.Proofs.OnePass
import Consequence.Reading.OpenLine

/-!
# Reading in one pass

The recursive reader of the prefix syntax and the scan with a stack of open forms agree. Each reader
is compared with the scan under any stack: behind what was read the scan goes on with the formula
handed to the innermost open form (`Scan.resume`).

* `Scan.scan_term`, `Scan.scan_operands`, `Scan.follows_prefixed`: one lemma for each reader.
* `OpenLine.clause_eq_scan`: both read the same formulas, refuse the same lines for the same reason in
  the same place, and stop at the same character.
-/

set_option autoImplicit false

namespace Consequence

namespace Scan

variable {limit rounds room : Nat} {caret after opened : Caret} {stack outer : List OpenForm}
  {form : Reader Formula}

/-- The scan goes on with a formula that was read. -/
def resume (limit : Nat) (stack : List OpenForm) (f : Formula) : Reader Formula :=
  goOn limit (hand f stack)

/-- With `depth` forms open, the scan goes on like the reader and then hands the form to the innermost
of them. -/
def Follows (limit depth rounds : Nat) (form : Reader Formula) : Prop :=
  ∀ stack caret, stack.length = depth → caret.ahead.head? = some '(' → caret.ahead.length ≤ rounds →
    scan limit .gap stack caret = (form >>= resume limit stack) caret

theorem scan_term (hform : Follows limit stack.length rounds form)
    (hrounds : caret.ahead.length ≤ rounds)
    (hinside : stack = [] ∨ ∃ c, (caret.skip isBlank).ahead.head? = some c ∧ c ≠ ')') :
    scan limit .gap stack caret = (Reader.term form >>= resume limit stack) caret := by
  have hlength := Caret.length_skip_le isBlank caret
  rw [scan_gap_skip]
  cases hc : (caret.skip isBlank).ahead.head? with
  | none =>
    rcases hinside with rfl | ⟨c, hsome, -⟩
    · rw [bind_error (Reader.term_of_end hc), scan_end _ hc]
      rfl
    · rw [hc] at hsome
      cases hsome
  | some c =>
    by_cases hopen : c = '('
    · subst hopen
      rw [hform stack _ rfl hc (by omega)]
      simp only [bind, EStateM.bind, Reader.term_of_open hc]
    · have hclose : c = ')' → stack = [] := fun hclose =>
        hinside.resolve_right fun ⟨d, hd, hnot⟩ =>
          hnot ((Option.some.inj (hd.symm.trans hc)).trans hclose)
      rw [scan_gap_of_word hc (Caret.head?_skip hc) hopen hclose, scan_word]
      simp only [bind, EStateM.bind, Reader.term_of_word hc hopen]
      cases Reader.word (caret.skip isBlank) with
      | ok name after => simp [resume, Phase.settle, pure, EStateM.pure]
      | error e after => rfl

/-- The form that closes at the caret, or what is wrong with its word. -/
def closed (form : OpenForm) : Reader Formula := fun caret =>
  match form.close with
  | .ok f => .ok f caret
  | .error e => .error e caret

theorem scan_close (h : caret.ahead.head? = some ')') (form : OpenForm) :
    scan limit .gap (form :: outer) caret =
      (closed form >>= resume limit outer) caret.advance := by
  rw [scan_step _ h]
  simp only [step, meet, bind, EStateM.bind, closed, show isBlank ')' = false by decide]
  cases form.close with
  | error e => rfl
  | ok f =>
    cases hhand : hand f outer with
    | inl g => simp [resume, goOn, hhand]
    | inr stack => simp [resume, goOn, hhand]

/-- The operands of a form, one round each: a round hands an operand to the form, and the last one
closes it. -/
theorem scan_operands {n : Nat} (name : String) (done : Array Formula)
    (hform : Follows limit (outer.length + 1) rounds form)
    (hadvances : Reader.Advances form) (hrounds : caret.ahead.length ≤ rounds)
    (hlength : caret.ahead.length < n) (hline : caret.line = opened.line) :
    scan limit .gap (⟨opened.position, name, done.toList⟩ :: outer) caret =
      (Reader.operands form opened n done >>= fun fs =>
        closed ⟨opened.position, name, fs⟩ >>= resume limit outer) caret := by
  induction n generalizing caret done with
  | zero => omega
  | succ n ih =>
    have hskip := caret.moves_skip isBlank
    have hshorter := Caret.length_skip_le isBlank caret
    rw [scan_gap_skip]
    cases hc : (caret.skip isBlank).ahead.head? with
    | none =>
      have hend : (caret.skip isBlank).position = opened.lineEnd := by
        rw [Caret.lineEnd_eq, ← hline, ← hskip.line_eq, ← Caret.lineEnd_eq, Caret.lineEnd,
          List.head?_eq_none_iff.1 hc]
        rfl
      rw [bind_error (Reader.operands_of_end hc), scan_end _ hc, finish, hend]
      rfl
    | some c =>
      by_cases hclose : c = ')'
      · subst hclose
        rw [bind_ok (Reader.operands_of_close hc), scan_close hc]
      · have hinside : ∃ d, ((caret.skip isBlank).skip isBlank).ahead.head? = some d ∧ d ≠ ')' := by
          rw [Caret.skip_eq_self _ hc (Caret.head?_skip hc)]
          exact ⟨c, hc, hclose⟩
        rw [scan_term hform (by omega) (.inr hinside)]
        simp only [bind, EStateM.bind, Reader.operands_of_operand hc hclose]
        cases hterm : Reader.term form (caret.skip isBlank) with
        | error e next => rfl
        | ok g next =>
          -- the operand has a character, so one round less is enough for the rest
          obtain ⟨text, hmoves, hsome⟩ := Reader.moves_term hadvances hterm
          obtain ⟨d, hd, -⟩ := hsome (by simpa [Caret.skip_eq_self _ hc (Caret.head?_skip hc), hc])
          have htext := List.length_pos_of_mem hd
          have hnext := hmoves.length_eq
          have hrest := @ih next (done.push g) (by omega) (by omega)
            (by rw [hmoves.line_eq, hskip.line_eq, hline])
          rw [Array.toList_push] at hrest
          exact hrest

theorem prefixed_of_open (h : caret.ahead.head? = some '(') :
    Reader.prefixed limit rounds (room + 1) caret =
      (Reader.word >>= fun name =>
        Reader.operands (Reader.prefixed limit rounds room) caret rounds #[] >>= fun fs =>
          closed ⟨caret.position, name, fs⟩) caret.advance := by
  have hopen := (Caret.moves_advance h).position_eq
  rw [Reader.prefixed, bind_ok (Reader.get_eq caret), bind_ok (Reader.advance_eq _),
    bind_ok (Reader.get_eq _)]
  cases hword : Reader.word caret.advance with
  | error e after => rw [bind_error hword, bind_error hword]
  | ok name stop =>
    have hstop := (Reader.moves_word hword).position_eq
    rw [bind_ok hword, bind_ok hword, bind_ok (Reader.get_eq stop)]
    cases hfs : Reader.operands (Reader.prefixed limit rounds room) caret rounds #[] stop with
    | error e after => rw [bind_error hfs, bind_error hfs]
    | ok fs after =>
      have hstart : caret.advance.position = caret.position + 1 := hopen
      rw [bind_ok hfs, bind_ok hfs, closed, OpenForm.close, hstop, hstart]
      cases Connective.ofWord? name with
      | some op => rfl
      | none =>
        by_cases hname : name = ""
        · simp [hname, Reader.fail_eq]
        · simp [hname, Reader.fail_eq]

theorem follows_prefixed {depth : Nat} (hlimit : depth + room = limit) :
    Follows limit depth rounds (Reader.prefixed limit rounds room) := by
  induction room generalizing depth with
  | zero =>
    intro stack caret hdepth hopen _
    obtain rfl : stack.length = limit := by omega
    rw [scan_step _ hopen]
    simp only [step, meet, Nat.lt_irrefl]
    rfl
  | succ room ih =>
    intro stack caret hdepth hopen hrounds
    have hroom : stack.length < limit := by omega
    have hadvance := Caret.moves_advance hopen
    rw [scan_step _ hopen]
    simp only [step, meet, hroom, if_true, Bool.false_eq_true, if_false,
      show isBlank '(' = false by decide]
    rw [scan_word]
    simp only [bind, EStateM.bind, prefixed_of_open hopen]
    cases hword : Reader.word caret.advance with
    | error e after => rfl
    | ok name stop =>
      have hmoves := hadvance.trans (Reader.moves_word hword)
      have hlength := hmoves.length_eq
      simp only [List.length_append, List.length_singleton] at hlength
      -- the word is shorter than the form, so the rounds are enough for the operands
      have hoperands := scan_operands (n := rounds) name #[]
        (ih (show stack.length + 1 + room = limit by omega)) Reader.advances_prefixed (by omega)
        (by omega) hmoves.line_eq
      have hsettle : (Phase.word (some caret.position) name.toList.reverse).settle stack =
          .inr (⟨caret.position, name, []⟩ :: stack) := by
        simp [Phase.settle]
      simp only [hsettle, goOn]
      refine hoperands.trans ?_
      simp only [bind, EStateM.bind]
      cases Reader.operands (Reader.prefixed limit rounds room) caret rounds #[] stop with
      | error e after => rfl
      | ok fs after => rfl

theorem scan_formula : scan limit .gap [] caret = Reader.formula limit caret := by
  have hform : Follows limit 0 caret.ahead.length
      (Reader.prefixed limit caret.ahead.length limit) := follows_prefixed (Nat.zero_add limit)
  rw [scan_term hform (Nat.le_refl _) (.inl rfl), Reader.formula_eq]
  cases hterm : Reader.term (Reader.prefixed limit caret.ahead.length limit) caret with
  | error e after => exact bind_error hterm
  | ok f after => exact bind_ok hterm

theorem clause_eq (limit : Nat) (caret : Caret) : clause limit caret = Reader.clause limit caret := by
  have hscan : run limit caret.passed .gap [] caret.ahead = Reader.formula limit caret := scan_formula
  rw [clause, hscan, Reader.clause]
  cases hformula : Reader.formula limit caret with
  | error e after => exact (bind_error hformula).symm
  | ok f after =>
    rw [bind_ok hformula]
    rfl

end Scan

/-- **One pass with a stack of open forms**: reading a clause from any caret, within any depth, gives
the formula or the error of the scan, and the line with the caret where the scan stops. -/
theorem OpenLine.clause_eq_scan (line : OpenLine) (limits : Limits) :
    line.clause limits =
      match Scan.clause limits.depth line.caret with
      | .ok f caret => ⟨.ok f, { line with caret }.unread?, { line with caret }⟩
      | .error e caret => ⟨.error (line.errorOf e), none, { line with caret }⟩ := by
  rw [Scan.clause_eq, OpenLine.clause, OpenLine.read]
  cases Reader.clause limits.depth line.caret with
  | ok f caret => rfl
  | error e caret => rfl

/-- A form in a form. The scan stops at what stands behind it. -/
example :
    Scan.clause 2 { ahead := "(NOT (or p é)) q".toList } =
      .ok (.node .not [.node .or [.atom "p", .atom "é"]])
        ⟨"(NOT (or p é)) ".toList.reverse, ['q']⟩ := by
  cbv

/-- The second parenthesis is the first one that is too deep. -/
example :
    Scan.clause 1 { ahead := "(not (not p))".toList } =
      .error (.tooDeep 1 2) ⟨"(not ".toList.reverse, "(not p))".toList⟩ := by
  cbv

end Consequence
