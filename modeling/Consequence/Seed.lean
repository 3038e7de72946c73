import Consequence.Formula.Basic
import Std.Data.TreeMap.Basic

/-!
# Seeds

A clause that is a literal pins its symbol: an atom to true and a negated atom to false. Of several
literals over one symbol the last one counts. Symbols without a pinned value are free.
-/

set_option autoImplicit false

namespace Consequence

/-- The pinned symbols with their values, sorted by name. -/
abbrev Seed := Std.TreeMap String Bool

namespace Seed

/-- Pins what one clause pins. -/
def add (seed : Seed) (f : Formula) : Seed :=
  match f.literal? with
  | some (name, value) => seed.insert name value
  | none => seed

/-- The seed of a list of clauses. -/
def ofFormulas (fs : List Formula) : Seed :=
  fs.foldl add ∅

end Seed

end Consequence
