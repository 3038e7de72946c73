/-!
# Connectives

The six connectives, the words that name them and the operand counts that they accept. Words are
compared up to the case of ASCII letters.
-/

set_option autoImplicit false

namespace Consequence

/-- Two words agree up to the case of ASCII letters. -/
def sameWord (s t : String) : Bool :=
  s.toList.map Char.toLower == t.toList.map Char.toLower

/-- How many operands a connective takes. -/
inductive Arity where
  | exactly (n : Nat)
  | atLeast (n : Nat)
  deriving DecidableEq, Repr

namespace Arity

/-- The arity admits `count` operands. -/
def accepts : Arity → Nat → Bool
  | exactly n, count => count == n
  | atLeast n, count => n ≤ count

/-- So many operands, in words. -/
def counted (n : Nat) : String :=
  if n = 1 then "1 operand" else s!"{n} operands"

/-- The arity in words. -/
def text : Arity → String
  | exactly n => "exactly " ++ counted n
  | atLeast n => "at least " ++ counted n

end Arity

/-- A propositional connective. -/
inductive Connective where
  | not
  | and
  | or
  | xor
  | implies
  | iff
  deriving DecidableEq, Repr

namespace Connective

/-- All connectives. -/
def all : List Connective := [not, and, or, xor, implies, iff]

/-- The word that names the connective in prefix form. -/
def word : Connective → String
  | not => "not"
  | and => "and"
  | or => "or"
  | xor => "xor"
  | implies => "if"
  | iff => "iff"

/-- The word that stands between operands in canonical form. -/
def linkWord : Connective → String
  | implies => "impl"
  | op => op.word

/-- The connective that a word names in prefix form. -/
def ofWord? (word : String) : Option Connective :=
  all.find? fun op => sameWord op.word word

/-- The connective that a word names between operands in canonical form. Negation has no place
there. Implication may also be named as in prefix form, but `linkWord` is what is written. -/
def ofLink? (word : String) : Option Connective :=
  if sameWord "impl" word then some implies
  else (ofWord? word).filter (· ≠ not)

/-- The operand counts of a well-formed formula. -/
def arity : Connective → Arity
  | not => .exactly 1
  | implies | iff => .exactly 2
  | and | or | xor => .atLeast 1

end Connective

end Consequence
