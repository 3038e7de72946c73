import Consequence.Reading.Canonical
import Consequence.Reading.Prefix

/-!
# Readers with room

Readers that are told how many more forms may be open, and count nothing. A reader of forms passes on one
less than it has, so what is in front of a form plays no part in whether it is refused.
`Reader.formula_eq` and `Reader.canonical_eq` say that the readers that count do the same.
-/

set_option autoImplicit false

namespace Consequence.Reader

/-- Reads one formula: an atom, or a parenthesised form, which `form` reads. -/
def term (form : Reader Formula) : Reader Formula := do
  skipBlanks
  match ← peek with
  | none =>
    let caret ← get
    fail .missingFormula caret.position caret.position
  | some c => if c = '(' then form else return .atom (← word)

/-- Reads the operands of a form that opened at `opened`, and its closing parenthesis. -/
def operands (form : Reader Formula) (opened : Caret) :
    Nat → Array Formula → Reader (List Formula)
  | 0, _ => unclosed opened
  | rounds + 1, done => do
    skipBlanks
    match ← peek with
    | none => unclosed opened
    | some c =>
      if c = ')' then
        advance
        return done.toList
      else
        operands form opened rounds (done.push (← term form))

/-- Reads a form of the prefix syntax. `room` more forms may be open inside a line that allows
`limit` of them, so a form that is refused is the first one beyond the limit. -/
def prefixed (limit rounds : Nat) : (room : Nat) → Reader Formula
  | 0 => throw (.tooDeep limit (limit + 1))
  | room + 1 => do
    let opened ← get
    advance
    let start ← get
    let name ← word
    let stop ← get
    let fs ← operands (prefixed limit rounds room) opened rounds #[]
    match Connective.ofWord? name with
    | some op => return .node op fs
    | none =>
      if name = "" then fail .missingConnective opened.position (opened.position + 1)
      else fail (.unknownConnective name) start.position stop.position

/-- Reads the links and operands of a group that opened at `opened`, and its closing parenthesis. -/
def links (form : Reader Formula) (opened : Caret) :
    Nat → Option Connective → Array Formula → Reader Formula
  | 0, _, _ => unclosed opened
  | rounds + 1, op?, done => do
    skipBlanks
    match ← peek with
    | none => unclosed opened
    | some c =>
      if c = ')' then
        advance
        return .node (op?.getD .and) done.toList
      else
        let op ← link op? done.size
        links form opened rounds (some op) (done.push (← term form))

/-- Reads a form of the canonical syntax. `room` more forms may be open inside a line that allows
`limit` of them. -/
def grouped (limit rounds : Nat) : (room : Nat) → Reader Formula
  | 0 => throw (.tooDeep limit (limit + 1))
  | room + 1 => do
    let opened ← get
    advance
    skipBlanks
    match ← peek with
    | none => unclosed opened
    | some c =>
      if c = '(' then
        links (grouped limit rounds room) opened rounds none #[← grouped limit rounds room]
      else
        let name ← word
        if sameWord "not" name then
          let f ← term (grouped limit rounds room)
          close opened
          return .node .not [f]
        else
          links (grouped limit rounds room) opened rounds none #[.atom name]

end Consequence.Reader
