import Mathlib
import Consequence.Proofs.Denotation
import Consequence.Reading.OpenLine

/-!
# Reading clause after clause

A clause that is read takes at least one character that is not a blank, unless the line goes on with a
closing parenthesis. There every reading gives an atom without a name and stays.

* `Reader.moves_clause`: what one reading moves over.
* `OpenLine.ReadsOut`: reading again and again comes to an end.
* `OpenLine.readsOut_halting`, `OpenLine.not_readsOut_of_close`: it does where it halts at an atom without
  a name, and where it does not halt there it reads this atom forever.
* `OpenLine.clause_progress`: all of this, from any caret on.
-/

set_option autoImplicit false

namespace Consequence

namespace Reader

variable {caret after : Caret} {f : Formula} {limit : Nat}

theorem moves_clause (h : clause limit caret = .ok f after) :
    ∃ text, caret.Moves text after ∧
      ((caret.skip isBlank).ahead.head? ≠ some ')' → ∃ c ∈ text, isBlank c = false) := by
  obtain ⟨last, hformula, rfl⟩ := clause_eq_ok_iff.1 h
  rw [formula_eq] at hformula
  obtain ⟨text, hmoves, htext⟩ := moves_term advances_prefixed hformula
  refine ⟨_, hmoves.trans (last.moves_skip isBlank), fun hclose => ?_⟩
  obtain ⟨c, hc, hblank⟩ := htext hclose
  exact ⟨c, List.mem_append_left _ hc, hblank⟩

end Reader

namespace OpenLine

variable {line : OpenLine} {limits : Limits} {f : Formula} {after : Caret} {halts : Formula → Prop}

theorem clause_of_ok (h : Reader.clause limits.depth line.caret = .ok f after) :
    line.clause limits = ⟨.ok f, { line with caret := after }.unread?, { line with caret := after }⟩ := by
  simp only [clause, read, h]

/-- A row is read as the formula that it starts with, up to what is behind it. -/
theorem clause_of_firstFormula {source : Source} {row : Row} {kept unread : List Char}
    (h : FirstFormula f row.text kept unread) (hdepth : f.depth ≤ limits.depth) :
    (ofRow source row).clause limits = ⟨.ok f, unread? ⟨source, row, ⟨kept.reverse ++ [], unread⟩⟩,
      ⟨source, row, ⟨kept.reverse ++ [], unread⟩⟩⟩ :=
  clause_of_ok ((Reader.clause_eq_ok_iff_firstFormula h.named.ne_empty []).2 ⟨hdepth, _, _, h, rfl⟩)

/-- A clause is read where its reader succeeds, and the line goes on from there. -/
theorem result_clause_eq_ok (h : (line.clause limits).result = .ok f) :
    Reader.clause limits.depth line.caret = .ok f (line.clause limits).line.caret := by
  cases hread : Reader.clause limits.depth line.caret with
  | ok g after =>
    rw [clause_of_ok hread] at h ⊢
    cases h
    rfl
  | error e after =>
    simp only [clause, read, hread] at h
    cases h

/-- Reading clauses from the line again and again comes to an end: at the end of the line, with an
error, or at a formula that halts it. -/
inductive ReadsOut (limits : Limits) (halts : Formula → Prop) : OpenLine → Prop where
  | atEnd {line : OpenLine} : line.caret.ahead = [] → ReadsOut limits halts line
  | failed {line : OpenLine} {e : Error} :
      (line.clause limits).result = .error e → ReadsOut limits halts line
  | halted {line : OpenLine} {f : Formula} :
      (line.clause limits).result = .ok f → halts f → ReadsOut limits halts line
  | next {line : OpenLine} {f : Formula} :
      (line.clause limits).result = .ok f → ReadsOut limits halts (line.clause limits).line →
        ReadsOut limits halts line

theorem clause_of_close (limits : Limits) (h : (line.caret.skip isBlank).ahead.head? = some ')') :
    (line.clause limits).result = .ok (.atom "") ∧
      (line.clause limits).line.caret = line.caret.skip isBlank := by
  rw [clause_of_ok (Reader.clause_of_close h)]
  exact ⟨rfl, rfl⟩

/-- One step takes a character, unless a closing parenthesis comes next. -/
theorem clause_takes (hread : (line.clause limits).result = .ok f)
    (hclose : (line.caret.skip isBlank).ahead.head? ≠ some ')') :
    ∃ text, line.caret.Moves text (line.clause limits).line.caret ∧ ∃ c ∈ text, isBlank c = false := by
  obtain ⟨text, hmoves, htext⟩ := Reader.moves_clause (result_clause_eq_ok hread)
  exact ⟨text, hmoves, htext hclose⟩

/-- Every step but one that reads an atom without a name leaves fewer characters ahead. -/
theorem readsOut_halting (limits : Limits) (line : OpenLine) :
    ReadsOut limits (· = .atom "") line := by
  induction hn : line.caret.ahead.length using Nat.strong_induction_on generalizing line with
  | _ n ih =>
    cases hread : (line.clause limits).result with
    | error e => exact .failed hread
    | ok f =>
      by_cases hf : f = .atom ""
      · exact .halted hread hf
      · have hclose : (line.caret.skip isBlank).ahead.head? ≠ some ')' := by
          intro hclose
          rw [(clause_of_close limits hclose).1] at hread
          cases hread
          exact hf rfl
        obtain ⟨text, hmoves, c, hc, -⟩ := clause_takes hread hclose
        have htext := List.length_pos_of_mem hc
        have hlength := hmoves.length_eq
        exact .next hread (ih _ (by omega) _ rfl)

/-- In front of a closing parenthesis the same atom is read forever. -/
theorem not_readsOut_of_close (h : (line.caret.skip isBlank).ahead.head? = some ')') :
    ¬ ReadsOut limits (fun _ => False) line := by
  intro hends
  induction hends with
  | atEnd hnil =>
    simp [Caret.skip, hnil] at h
  | failed hread =>
    rw [(clause_of_close limits h).1] at hread
    cases hread
  | halted _ hhalts => exact hhalts
  | next hread _ ih =>
    refine ih ?_
    rw [(clause_of_close limits h).2, Caret.skip_eq_self _ h (by decide)]
    exact h

/-- **Reading clauses makes progress up to a closing parenthesis**: from any caret, within any limit, a
clause that is read takes a character that is no blank, if the first one ahead is no closing parenthesis.
If it is, the clause is an atom without a name, the caret stops in front of the parenthesis, and reading
on has no end. Reading that halts at such an atom always ends. -/
theorem clause_progress (line : OpenLine) (limits : Limits) :
    (∀ f, (line.clause limits).result = .ok f → (line.caret.skip isBlank).ahead.head? ≠ some ')' →
      ∃ text, line.caret.Moves text (line.clause limits).line.caret ∧
        ∃ c ∈ text, isBlank c = false) ∧
    ((line.caret.skip isBlank).ahead.head? = some ')' →
      (line.clause limits).result = .ok (.atom "") ∧
        (line.clause limits).line.caret = line.caret.skip isBlank ∧
        ¬ ReadsOut limits (fun _ => False) line) ∧
    ReadsOut limits (· = .atom "") line := by
  refine ⟨fun f => clause_takes, fun hclose => ?_, readsOut_halting limits line⟩
  obtain ⟨hresult, hstop⟩ := clause_of_close limits hclose
  exact ⟨hresult, hstop, not_readsOut_of_close hclose⟩

/-- A line that is a clause and then a closing parenthesis. -/
def overclosed : OpenLine :=
  .ofText "base" " (not p)) q" 0 1

/-- The clause is read with the blank in front of it, and no clause is read behind it. -/
theorem clause_progress_overclosed :
    (∃ text, overclosed.caret.Moves text (overclosed.clause {}).line.caret ∧
      ∃ c ∈ text, isBlank c = false) ∧
    ((overclosed.clause {}).line.clause {}).result = .ok (.atom "") ∧
    ¬ ReadsOut {} (fun _ => False) (overclosed.clause {}).line ∧
    ReadsOut {} (· = .atom "") overclosed := by
  have hread : (overclosed.clause {}).result = .ok (.node .not [.atom "p"]) := by cbv
  have hfirst : (overclosed.caret.skip isBlank).ahead.head? ≠ some ')' := by decide
  have hafter : ((overclosed.clause {}).line.caret.skip isBlank).ahead.head? = some ')' := by cbv
  obtain ⟨htakes, -, hends⟩ := clause_progress overclosed {}
  obtain ⟨hempty, -, hforever⟩ := (clause_progress (overclosed.clause {}).line {}).2.1 hafter
  exact ⟨htakes _ hread hfirst, hempty, hforever, hends⟩

/-- A single closing parenthesis is read as a clause without being taken, again and again. -/
theorem not_forall_clause_takes :
    (¬ ∀ (text : String) (limits : Limits) (f : Formula), (∃ c ∈ text.toList, isBlank c = false) →
      ((ofText "base" text 0 1).clause limits).result = .ok f →
      ∃ taken, (ofText "base" text 0 1).caret.Moves taken
          ((ofText "base" text 0 1).clause limits).line.caret ∧
        ∃ c ∈ taken, isBlank c = false) ∧
    ¬ ∀ (text : String) (limits : Limits), ReadsOut limits (fun _ => False) (ofText "base" text 0 1) := by
  have hclose : ((ofText "base" ")" 0 1).caret.skip isBlank).ahead.head? = some ')' := by decide
  obtain ⟨hread, hstop⟩ := clause_of_close {} hclose
  constructor
  · intro htakes
    obtain ⟨taken, hmoves, c, hc, -⟩ := htakes ")" {} _ ⟨')', by decide, by decide⟩ hread
    -- the caret stays where it is, so nothing was taken
    have hlength := hmoves.length_eq
    have hskip : ((ofText "base" ")" 0 1).caret.skip isBlank).ahead.length =
        (ofText "base" ")" 0 1).caret.ahead.length := by decide
    rw [hstop, hskip] at hlength
    have hpos := List.length_pos_of_mem hc
    omega
  · exact fun hends => not_readsOut_of_close hclose (hends ")" {})

end OpenLine

end Consequence
