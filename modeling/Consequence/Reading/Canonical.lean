import Consequence.Reading.Nested

/-!
# Reading the canonical form

    formula := word | '(' 'not' formula ')' | '(' first (link formula)* ')'

All links of a group are the same connective. A group of one operand is a conjunction. The first
operand of a group may be any word but `not`.
-/

set_option autoImplicit false

namespace Consequence

namespace Reader

/-- Reads the word of a link that joins one more operand to `done` of them, in a group whose earlier
links are `op?`. -/
def link (op? : Option Connective) (done : Nat) : Reader Connective := do
  let start ← get
  let name ← word
  let stop ← get
  match Connective.ofLink? name with
  | none => fail (.notALink name) start.position stop.position
  | some found =>
    match op?.filter (· ≠ found) with
    | some first => fail (.mixedLinks first found) start.position stop.position
    | none =>
      if found.arity.accepts (done + 1) then return found
      else fail (.overfullGroup found) start.position stop.position

/-- Reads the closing parenthesis of a form that opened at `opened`. -/
def close (opened : Caret) : Reader Unit := do
  skipBlanks
  match ← peek with
  | none => unclosed opened
  | some c => if c = ')' then advance else failAt (.notAClose c) c

end Reader

namespace NestedReader

/-- Reads the links and operands of a group that opened at `opened`, and its closing parenthesis.
Every round reads at least one character. -/
def links (form : NestedReader Formula) (opened : Caret) :
    Nat → Option Connective → Array Formula → NestedReader Formula
  | 0, _, _ => Reader.unclosed opened
  | rounds + 1, op?, done => do
    Reader.skipBlanks
    match ← Reader.peek with
    | none => Reader.unclosed opened
    | some c =>
      if c = ')' then
        Reader.advance
        return .node (op?.getD .and) done.toList
      else
        let op ← Reader.link op? done.size
        links form opened rounds (some op) (done.push (← term form))

/-- Reads a form of the canonical syntax. Every form reads at least its parenthesis, so as many `forms`
inside each other as there are characters are enough; `rounds` bounds the links of each. -/
def grouped (rounds : Nat) : (forms : Nat) → NestedReader Formula
  | 0 => do Reader.unclosed (← caret)
  | forms + 1 => do
    let opened ← caret
    Reader.advance
    Reader.skipBlanks
    match ← Reader.peek with
    | none => Reader.unclosed opened
    | some c =>
      if c = '(' then
        links (grouped rounds forms) opened rounds none #[← term (grouped rounds forms)]
      else
        let name ← Reader.word
        if sameWord "not" name then
          let f ← term (grouped rounds forms)
          Reader.close opened
          return .node .not [f]
        else
          links (grouped rounds forms) opened rounds none #[.atom name]

end NestedReader

/-- Reads a whole text that is one formula in canonical form, nested no deeper than `limit`. -/
def Reader.canonical (limit : Nat) : Reader Formula := do
  let size := (← get).ahead.length
  let f ← NestedReader.run limit (NestedReader.term (NestedReader.grouped size size))
  skipBlanks
  let rest ← get
  if rest.ahead.isEmpty then return f
  else fail (.trailingText (String.ofList rest.ahead)) rest.position rest.lineEnd

end Consequence
