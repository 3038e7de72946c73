import Consequence.Formula.Basic

/-!
# Written forms of formulas

The prefix form is the one that sources are written in: `(and a (not b))`. The canonical form puts
the connective between its operands: `(a and (not b))`, `(p impl q)`.
-/

set_option autoImplicit false

namespace Consequence.Formula

/-- The characters of the prefix form. -/
def prefixForm : Formula → List Char
  | atom name => name.toList
  | node op fs => '(' :: op.word.toList ++ (fs.flatMap fun f => ' ' :: f.prefixForm) ++ [')']

/-- The prefix form. -/
def prefixText (f : Formula) : String :=
  String.ofList f.prefixForm

/-- The characters of the canonical form. -/
def canonicalForm : Formula → List Char
  | atom name => name.toList
  | node op fs =>
    let written := fs.map fun f => f.canonicalForm
    if op = .not then '(' :: op.linkWord.toList ++ written.flatMap (' ' :: ·) ++ [')']
    else '(' :: (' ' :: op.linkWord.toList ++ [' ']).intercalate written ++ [')']

/-- The canonical form. -/
def canonicalText (f : Formula) : String :=
  String.ofList f.canonicalForm

end Consequence.Formula
