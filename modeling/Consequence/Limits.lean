/-!
# Limits

Bounds that keep loading and checking predictable.
-/

set_option autoImplicit false

namespace Consequence

/-- The bounds in force. Without a bound on free symbols every check is run. -/
structure Limits where
  /-- The most bytes that one source may have. -/
  sourceBytes : Nat := 5 * 1024 * 1024
  /-- The deepest nesting of parenthesised forms. -/
  depth : Nat := 100
  /-- The most symbols whose assignments a check may enumerate. -/
  freeSymbols : Option Nat := none
  deriving DecidableEq, Repr

/-- A bound that was exceeded, with its value and the value found. -/
inductive Excess where
  | sourceBytes (limit found : Nat)
  | depth (limit found : Nat)
  | freeSymbols (limit found : Nat)
  deriving DecidableEq, Repr

namespace Excess

/-- Bytes in one megabyte. -/
def megabyte : Nat := 1024 * 1024

/-- The nearest whole number to `n / d`; a tie goes to the even neighbour. -/
def roundDiv (n d : Nat) : Nat :=
  let q := n / d
  let twice := 2 * (n % d)
  if twice < d then q
  else if d < twice then q + 1
  else q + q % 2

/-- The rounded quotient is at most half a unit away. -/
theorem roundDiv_within_half (n : Nat) {d : Nat} (hd : 0 < d) :
    2 * n ≤ 2 * (d * roundDiv n d) + d ∧ 2 * (d * roundDiv n d) ≤ 2 * n + d := by
  have hdiv := Nat.div_add_mod n d
  have hmod := Nat.mod_lt n hd
  unfold roundDiv
  simp only
  split
  · omega
  · split
    · rw [Nat.mul_add]; omega
    · rcases Nat.mod_two_eq_zero_or_one (n / d) with h | h
      · rw [h, Nat.add_zero]; omega
      · rw [h, Nat.mul_add]; omega

/-- A number of hundredths with two decimals. -/
def hundredths (n : Nat) : String :=
  let digits := toString (n % 100)
  s!"{n / 100}." ++ (if n % 100 < 10 then "0" ++ digits else digits)

/-- The name of the bound. -/
def name : Excess → String
  | sourceBytes _ _ => "max_file_size_bytes"
  | depth _ _ => "max_expression_depth"
  | freeSymbols _ _ => "max_free_symbols"

/-- The bound in words. Megabytes are rounded down. -/
def limitText : Excess → String
  | sourceBytes limit _ => s!"{limit} bytes ({limit / megabyte} MB)"
  | depth limit _ => toString limit
  | freeSymbols limit _ => toString limit

/-- The value found in words. Megabytes are rounded to two decimals. -/
def actualText : Excess → String
  | sourceBytes _ found => s!"{found} bytes ({hundredths (roundDiv (100 * found) megabyte)} MB)"
  | depth _ found => toString found
  | freeSymbols _ found => toString found

/-- What to do about it. -/
def suggestion : Excess → String
  | sourceBytes _ _ => "Reduce file size or split the clauses over several files"
  | depth _ _ => "Simplify nested expressions to reduce depth"
  | freeSymbols _ found =>
    s!"{found} free symbols means 2^{found} assignments. " ++
      "Seed more symbols with unit clauses or raise the limit."

end Excess

end Consequence
