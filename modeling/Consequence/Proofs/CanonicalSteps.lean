import Consequence.Proofs.Nesting
import Consequence.Proofs.Words

/-!
# Steps of the canonical reader

What each reader of the canonical syntax reads when it succeeds.

* `Reader.link_eq_ok_iff`: a link is a word for the connective of the group.
* `Reader.links_succ_eq_ok_iff`: a group closes or goes on with a link and an operand.
* `Reader.grouped_succ_eq_ok_iff`: behind its parenthesis a form starts with a form, with `not` or
  with another word.
* `Reader.canonical_eq_ok_iff`: behind the formula there are only blanks.
-/

set_option autoImplicit false

namespace Consequence

namespace Reader

variable {caret after opened : Caret} {form : Reader Formula} {f : Formula} {op : Connective}
  {op? : Option Connective} {done : Array Formula} {limit rounds room count : Nat}

theorem filter_ne_eq_none_iff {found : Connective} :
    op?.filter (fun first => decide (first ≠ found)) = none ↔ op?.getD found = found := by
  cases op? <;> simp

theorem link_eq_ok_iff :
    link op? count caret = .ok op after ↔
      ∃ name, word caret = .ok name after ∧ Connective.ofLink? name = some op ∧
        op?.getD op = op ∧ op.arity.accepts (count + 1) = true := by
  unfold link
  rw [bind_ok (get_eq caret), bind_eq_ok_iff]
  refine exists_congr fun name => ?_
  constructor
  · intro h
    obtain ⟨between, hword, h⟩ := h
    rw [bind_ok (get_eq between)] at h
    cases hfound : Connective.ofLink? name with
    | none =>
      rw [hfound] at h
      exact absurd h fail_ne_ok
    | some found =>
      simp only [hfound] at h
      -- an earlier link of the group must be the same connective
      cases hsame : op?.filter (fun first => decide (first ≠ found)) with
      | some first =>
        simp only [hsame] at h
        exact absurd h fail_ne_ok
      | none =>
        simp only [hsame] at h
        split at h
        · next haccepts =>
          rw [pure_eq_ok_iff] at h
          obtain ⟨rfl, rfl⟩ := h
          exact ⟨hword, rfl, filter_ne_eq_none_iff.1 hsame, haccepts⟩
        · exact absurd h fail_ne_ok
  · intro h
    obtain ⟨hword, hop, hsame, haccepts⟩ := h
    refine ⟨after, hword, ?_⟩
    rw [bind_ok (get_eq after), hop]
    simp only [filter_ne_eq_none_iff.2 hsame, haccepts, if_true]
    rfl

theorem close_eq_ok_iff {u : Unit} :
    close opened caret = .ok u after ↔
      (caret.skip isBlank).ahead.head? = some ')' ∧ (caret.skip isBlank).advance = after := by
  unfold close
  rw [bind_ok (skipBlanks_eq caret), bind_ok (peek_eq _)]
  cases (caret.skip isBlank).ahead.head? with
  | none => simp [unclosed_ne_ok]
  | some c =>
    by_cases hc : c = ')'
    · simp [hc, advance_eq]
    · simp [hc, failAt_ne_ok]

theorem links_zero_ne_ok : links form opened 0 op? done caret ≠ .ok f after :=
  unclosed_ne_ok

theorem links_succ_eq_ok_iff :
    links form opened (rounds + 1) op? done caret = .ok f after ↔
      ((caret.skip isBlank).ahead.head? = some ')' ∧ (caret.skip isBlank).advance = after ∧
        .node (op?.getD .and) done.toList = f) ∨
      ∃ c op linked g joined, (caret.skip isBlank).ahead.head? = some c ∧ c ≠ ')' ∧
        link op? done.size (caret.skip isBlank) = .ok op linked ∧
        term form linked = .ok g joined ∧
        links form opened rounds (some op) (done.push g) joined = .ok f after := by
  rw [links]
  rw [bind_ok (skipBlanks_eq caret), bind_ok (peek_eq _)]
  cases (caret.skip isBlank).ahead.head? with
  | none => simp [unclosed_ne_ok]
  | some c =>
    by_cases hc : c = ')'
    · simp only [hc, if_true, bind_ok (advance_eq _), pure_eq_ok_iff]
      simp [and_comm]
    · simp only [hc, if_false, bind_eq_ok_iff]
      simp [hc]

theorem grouped_zero_ne_ok : grouped limit rounds 0 caret ≠ .ok f after := by
  intro h
  cases h

theorem grouped_succ_eq_ok_iff :
    grouped limit rounds (room + 1) caret = .ok f after ↔
      ((caret.advance.skip isBlank).ahead.head? = some '(' ∧ ∃ g first,
        grouped limit rounds room (caret.advance.skip isBlank) = .ok g first ∧
        links (grouped limit rounds room) caret rounds none #[g] first = .ok f after) ∨
      ∃ c name first, (caret.advance.skip isBlank).ahead.head? = some c ∧ c ≠ '(' ∧
        word (caret.advance.skip isBlank) = .ok name first ∧
        ((sameWord "not" name = true ∧ ∃ g last,
            term (grouped limit rounds room) first = .ok g last ∧
            close caret last = .ok () after ∧ .node .not [g] = f) ∨
          (sameWord "not" name = false ∧
            links (grouped limit rounds room) caret rounds none #[.atom name] first =
              .ok f after)) := by
  rw [grouped]
  rw [bind_ok (get_eq caret), bind_ok (advance_eq _), bind_ok (skipBlanks_eq _),
    bind_ok (peek_eq _)]
  cases (caret.advance.skip isBlank).ahead.head? with
  | none => simp [unclosed_ne_ok]
  | some c =>
    by_cases hc : c = '('
    · simp only [hc, if_true, bind_eq_ok_iff]
      simp
    · simp only [hc, if_false, bind_eq_ok_iff]
      simp only [Option.some.injEq, hc, false_and, false_or]
      constructor
      · intro h
        obtain ⟨name, first, hword, h⟩ := h
        refine ⟨c, name, first, rfl, hc, hword, ?_⟩
        split at h
        · next hnot =>
          simp only [bind_eq_ok_iff, pure_eq_ok_iff] at h
          obtain ⟨g, last, hterm, _, _, hclose, hf, rfl⟩ := h
          exact .inl ⟨hnot, g, last, hterm, hclose, hf⟩
        · next hnot => exact .inr ⟨Bool.eq_false_iff.2 hnot, h⟩
      · intro h
        obtain ⟨_, name, first, rfl, _, hword, ⟨hnot, g, last, hterm, hclose, hf⟩ | ⟨hnot, h⟩⟩ := h
        · refine ⟨name, first, hword, ?_⟩
          simp only [hnot, if_true, bind_ok hterm, bind_ok hclose, hf]
          rfl
        · refine ⟨name, first, hword, ?_⟩
          simpa only [hnot, Bool.false_eq_true, if_false] using h

theorem canonical_eq_ok_iff :
    canonical limit caret = .ok f after ↔
      ∃ last, term (grouped limit caret.ahead.length limit) caret = .ok f last ∧
        last.skip isBlank = after ∧ after.ahead = [] := by
  rw [canonical_eq, bind_eq_ok_iff]
  constructor
  · intro h
    obtain ⟨g, last, hterm, h⟩ := h
    rw [bind_ok (skipBlanks_eq last), bind_ok (get_eq _)] at h
    split at h
    · next hempty =>
      rw [pure_eq_ok_iff] at h
      obtain ⟨rfl, rfl⟩ := h
      exact ⟨last, hterm, rfl, List.isEmpty_iff.1 hempty⟩
    · exact absurd h fail_ne_ok
  · intro h
    obtain ⟨last, hterm, rfl, hempty⟩ := h
    refine ⟨f, last, hterm, ?_⟩
    rw [bind_ok (skipBlanks_eq last), bind_ok (get_eq _), if_pos (List.isEmpty_iff.2 hempty)]
    rfl

end Reader

end Consequence
