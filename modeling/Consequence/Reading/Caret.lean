import Consequence.Error

/-!
# Reading positions

A caret stands between the characters of a line that were read and those that are ahead. A `Reader`
moves the caret; where it fails, the caret stays where the failure left it. Failures name byte
positions of the line, so a reader does not depend on where the line stands in its source.
-/

set_option autoImplicit false

namespace Consequence

/-- A position in a line: the characters read so far, last first, and the characters ahead. -/
structure Caret where
  passed : List Char := []
  ahead : List Char
  deriving DecidableEq, Repr

namespace Caret

/-- The characters of the whole line. -/
def line (caret : Caret) : List Char :=
  caret.passed.reverse ++ caret.ahead

/-- The bytes before the caret. -/
def position (caret : Caret) : Nat :=
  byteLength caret.passed

/-- The bytes of the whole line. -/
def lineEnd (caret : Caret) : Nat :=
  caret.position + byteLength caret.ahead

/-- Moves past one character, if there is one. -/
def advance (caret : Caret) : Caret :=
  match caret.ahead with
  | [] => caret
  | c :: ahead => ⟨c :: caret.passed, ahead⟩

/-- Moves past the run of characters that satisfy `p`. -/
def skip (p : Char → Bool) (caret : Caret) : Caret where
  passed := (caret.ahead.takeWhile p).reverseAux caret.passed
  ahead := caret.ahead.dropWhile p

end Caret

/-- Why reading a line fails: a cause between two byte positions, or a form that is refused at a depth
beyond the limit. -/
inductive Failure where
  | located (cause : Cause) (start stop : Nat)
  | tooDeep (limit found : Nat)
  deriving DecidableEq, Repr

/-- Reads something from a caret. -/
abbrev Reader := EStateM Failure Caret

namespace Reader

variable {α : Type}

/-- Fails with a cause that reaches from one position to another. -/
def fail (cause : Cause) (start stop : Nat) : Reader α :=
  throw (.located cause start stop)

/-- Fails with a cause at the next character. -/
def failAt (cause : Cause) (c : Char) : Reader α := do
  let caret ← get
  fail cause caret.position (caret.position + c.utf8Size)

/-- Fails for a form that opened at `opened` and never closes. -/
def unclosed (opened : Caret) : Reader α :=
  fail .unclosedForm opened.position opened.lineEnd

/-- The next character. -/
def peek : Reader (Option Char) :=
  return (← get).ahead.head?

/-- Moves past one character. -/
def advance : Reader Unit :=
  modify Caret.advance

/-- Moves past blanks. -/
def skipBlanks : Reader Unit :=
  modify (Caret.skip isBlank)

/-- Reads a run of symbol characters, which may be empty. It must be followed by a closing
parenthesis, a blank or the end of the line. -/
def word : Reader String := do
  let start ← get
  set (start.skip isWordChar)
  match ← peek with
  | some c =>
    if c = ')' || isBlank c then return String.ofList (start.ahead.takeWhile isWordChar)
    else failAt (.unexpectedChar c) c
  | none => return String.ofList (start.ahead.takeWhile isWordChar)

end Reader

end Consequence
