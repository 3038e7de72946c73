import Consequence.Reading.Nested

/-!
# Reading the prefix form

    formula := word | '(' word formula* ')'

The word of a form follows its parenthesis at once. It is looked up when the form closes, so what is
wrong inside the form is reported first. A closing parenthesis where a formula could start reads as
an atom without a name.
-/

set_option autoImplicit false

namespace Consequence

namespace NestedReader

/-- Reads the operands of a form that opened at `opened`, and its closing parenthesis. Every round
reads at least one character, so as many rounds as there are characters are enough. -/
def operands (form : NestedReader Formula) (opened : Caret) :
    Nat → Array Formula → NestedReader (List Formula)
  | 0, _ => Reader.unclosed opened
  | rounds + 1, done => do
    Reader.skipBlanks
    match ← Reader.peek with
    | none => Reader.unclosed opened
    | some c =>
      if c = ')' then
        Reader.advance
        return done.toList
      else
        operands form opened rounds (done.push (← term form))

/-- Reads a form of the prefix syntax. Every form reads at least its parenthesis, so as many `forms`
inside each other as there are characters are enough; `rounds` bounds the operands of each. -/
def prefixed (rounds : Nat) : (forms : Nat) → NestedReader Formula
  | 0 => do Reader.unclosed (← caret)
  | forms + 1 => do
    let opened ← caret
    Reader.advance
    let start ← caret
    let name ← Reader.word
    let stop ← caret
    let fs ← operands (prefixed rounds forms) opened rounds #[]
    match Connective.ofWord? name with
    | some op => return .node op fs
    | none =>
      if name = "" then Reader.fail .missingConnective opened.position (opened.position + 1)
      else Reader.fail (.unknownConnective name) start.position stop.position

end NestedReader

namespace Reader

/-- Reads one formula in prefix form, nested no deeper than `limit`. -/
def formula (limit : Nat) : Reader Formula := do
  let size := (← get).ahead.length
  NestedReader.run limit (NestedReader.term (NestedReader.prefixed size size))

/-- Reads one formula in prefix form and the blanks behind it. -/
def clause (limit : Nat) : Reader Formula := do
  let f ← formula limit
  skipBlanks
  return f

end Reader

end Consequence
