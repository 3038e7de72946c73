import Consequence.Formula.Basic

/-!
# Symbol tables

The distinct symbols of some formulas in order of first appearance. The place of a symbol in this
order is its slot; a slot never changes once it was given.
-/

set_option autoImplicit false

namespace Consequence

/-- Distinct names in the order in which they came. -/
structure Symbols where
  names : Array String
  distinct : names.toList.Nodup

namespace Symbols

/-- No names. -/
def empty : Symbols :=
  ⟨#[], List.nodup_nil⟩

/-- Adds a name behind the others, unless it is there already. -/
def insert (symbols : Symbols) (name : String) : Symbols :=
  if h : name ∈ symbols.names then symbols
  else {
    names := symbols.names.push name
    distinct := by
      have hnot : name ∉ symbols.names.toList := by simpa using h
      simpa [List.nodup_append, symbols.distinct] using
        fun other hother (he : other = name) => h (he ▸ hother) }

/-- The names afterwards are the names before and the new one. -/
theorem mem_insert {symbols : Symbols} {name other : String} :
    other ∈ (symbols.insert name).names ↔ other ∈ symbols.names ∨ other = name := by
  unfold insert
  split
  · next h => exact ⟨.inl, fun hor => hor.elim id fun he => he ▸ h⟩
  · simp

/-- Adds all symbols of a formula from left to right. -/
def extend (symbols : Symbols) (f : Formula) : Symbols :=
  f.atoms.foldl insert symbols

/-- The number of names. -/
def size (symbols : Symbols) : Nat :=
  symbols.names.size

/-- The slot of a name. -/
def slotOf (symbols : Symbols) (name : String) : Nat :=
  symbols.names.idxOf name

/-- The slot of a name, a new one if it has none, and the table afterwards. -/
def allot (symbols : Symbols) (name : String) : Nat × Symbols :=
  let after := symbols.insert name
  (after.slotOf name, after)

/-- The name in a slot. -/
def nameAt (symbols : Symbols) (slot : Nat) : String :=
  symbols.names.getD slot ""

end Symbols

/-- The distinct symbols of a formula. -/
def Formula.symbols (f : Formula) : Symbols :=
  Symbols.empty.extend f

end Consequence
