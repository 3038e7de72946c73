import Consequence.Seed
import Consequence.Symbols

/-!
# Walking through assignments

A row assigns a truth value to every slot. The odometer gives all rows that agree with a seed, once
each: pinned slots keep their value, and free slots count in binary from all false to all true, the
first free slot being the lowest digit. After the last row there is none, however often one asks.
-/

set_option autoImplicit false

namespace Consequence

/-- The free slots, ascending, and the row to give next. -/
structure Odometer where
  free : List Nat
  upcoming : Option (Array Bool)
  deriving Repr

namespace Odometer

/-- The odometer before the first row. -/
def start (symbols : Symbols) (seed : Seed) : Odometer where
  free := (List.range symbols.size).filter fun slot => !seed.contains (symbols.nameAt slot)
  upcoming := some (symbols.names.map fun name => seed.getD name false)

/-- Adds one to the number that the free slots of a row spell, lowest digit first; there is no next
row when all of them are true. -/
def carry : List Nat → Array Bool → Option (Array Bool)
  | [], _ => none
  | slot :: free, row =>
    if row.getD slot false then carry free (row.setIfInBounds slot false)
    else some (row.setIfInBounds slot true)

/-- The next row, if there is one, and the odometer behind it. -/
def next (odometer : Odometer) : Option (Array Bool) × Odometer :=
  (odometer.upcoming, { odometer with upcoming := odometer.upcoming.bind (carry odometer.free) })

/-- Folds over at most `count` further rows. -/
def foldRows {α : Type} (f : α → Array Bool → α) : Nat → Odometer → α → α
  | 0, _, a => a
  | count + 1, odometer, a =>
    match odometer.next with
    | (none, _) => a
    | (some row, after) => foldRows f count after (f a row)

/-- Folds over all rows. There are as many as the free slots have combinations. -/
def fold {α : Type} (f : α → Array Bool → α) (a : α) (odometer : Odometer) : α :=
  foldRows f (Nat.pow 2 odometer.free.length) odometer a

/-- All rows in order. -/
def rows (odometer : Odometer) : Array (Array Bool) :=
  odometer.fold Array.push #[]

end Odometer

end Consequence
