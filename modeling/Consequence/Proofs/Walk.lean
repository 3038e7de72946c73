import Mathlib
import Consequence.Proofs.Enumeration

/-!
# Walks in place

An odometer holds the row that it gives next. A walk holds the row that it gave last and changes it in
place when it is asked again; it remembers whether it gave one and whether there is none left.

* `Walk.odometer_start`: a new walk, placed slot by slot, corresponds to the odometer at its start.
* `Walk.next_odometer`: one call of a walk is one call of its odometer.
* `Walk.calls_start_eq`: so any number of calls give the same.
* `Walk.yields_start_iff`: asking until there is none ends, and gives the rows of the odometer.
* `Walk.foldl_of_yields`: so loops over a walk are folds over the odometer.
-/

set_option autoImplicit false

namespace Consequence

/-- The values given last, the free slots, ascending, whether any were given and whether all were. -/
structure Walk where
  values : Array Bool := #[]
  free : Array Nat := #[]
  started : Bool := false
  exhausted : Bool := false

namespace Walk

/-- A slot with a pinned value keeps it. Any other starts as false and is free. -/
def place (symbols : Symbols) (seed : Seed) (walk : Walk) (slot : Nat) : Walk :=
  match seed[symbols.nameAt slot]? with
  | some value => { walk with values := walk.values.push value }
  | none => { walk with values := walk.values.push false, free := walk.free.push slot }

/-- The walk before the first call. -/
def start (symbols : Symbols) (seed : Seed) : Walk :=
  (List.range symbols.size).foldl (place symbols seed) {}

/-- Makes free slots false up to the first one that is, which becomes true. The flag says whether there
was one. -/
def raise : List Nat → Array Bool → Array Bool × Bool
  | [], values => (values, false)
  | slot :: free, values =>
    if values.getD slot false then raise free (values.setIfInBounds slot false)
    else (values.setIfInBounds slot true, true)

/-- One call. -/
def next (walk : Walk) : Option (Array Bool) × Walk :=
  if walk.exhausted then (none, walk)
  else if !walk.started then (some walk.values, { walk with started := true })
  else
    match raise walk.free.toList walk.values with
    | (values, true) => (some values, { walk with values })
    | (values, false) => (none, { walk with values, exhausted := true })

/-- What the next `count` calls give, one after the other. -/
def calls : Nat → Walk → List (Option (Array Bool))
  | 0, _ => []
  | count + 1, walk => walk.next.1 :: calls count walk.next.2

/-- The odometer that gives what the walk gives. -/
def odometer (walk : Walk) : Odometer where
  free := walk.free.toList
  upcoming :=
    if walk.exhausted then none
    else if walk.started then Odometer.carry walk.free.toList walk.values
    else some walk.values

/-! ## The start -/

section
variable (symbols : Symbols) (seed : Seed)

/-- Slots are placed behind those that are there, and only these two fields change. -/
theorem foldl_place (walk : Walk) (slots : List Nat) :
    slots.foldl (place symbols seed) walk =
      { walk with
        values := walk.values ++
          (slots.map fun slot => seed.getD (symbols.nameAt slot) false).toArray
        free := walk.free ++
          (slots.filter fun slot => !seed.contains (symbols.nameAt slot)).toArray } := by
  induction slots generalizing walk with
  | nil => simp
  | cons slot slots ih =>
    have hcontains : seed.contains (symbols.nameAt slot) = seed[symbols.nameAt slot]?.isSome :=
      Std.TreeMap.contains_eq_isSome_getElem?
    have hvalue : seed.getD (symbols.nameAt slot) false =
        seed[symbols.nameAt slot]?.getD false :=
      Std.TreeMap.getD_eq_getD_getElem?
    rw [List.foldl_cons, ih, place]
    cases hpin : seed[symbols.nameAt slot]? with
    | some value =>
      rw [hpin] at hcontains hvalue
      simp [hvalue, hcontains]
    | none =>
      rw [hpin] at hcontains hvalue
      simp [hvalue, hcontains]

theorem odometer_start : (start symbols seed).odometer = Odometer.start symbols seed := by
  have hvalues : ((List.range symbols.size).map fun slot =>
      seed.getD (symbols.nameAt slot) false).toArray =
      symbols.names.map fun name => seed.getD name false := by
    refine Array.ext (by simp [Symbols.size]) fun slot _ hslot => ?_
    have hslot' : slot < symbols.names.size := by simpa using hslot
    simp [Symbols.nameAt, hslot']
  rw [start, foldl_place, hvalues]
  simp [odometer, Odometer.start]

end

/-! ## Calls -/

/-- Raising finds a slot where a carry finds the next row, and then it is the values. -/
theorem carry_eq (free : List Nat) (values : Array Bool) :
    Odometer.carry free values =
      if (raise free values).2 then some (raise free values).1 else none := by
  induction free generalizing values with
  | nil => rfl
  | cons slot free ih =>
    rw [Odometer.carry, raise]
    split
    · exact ih _
    · rfl

theorem next_odometer (walk : Walk) :
    walk.odometer.next = (walk.next.1, walk.next.2.odometer) := by
  obtain ⟨values, free, started, exhausted⟩ := walk
  cases exhausted with
  | true => rfl
  | false =>
    cases started with
    | false => rfl
    | true =>
      have hcarry := carry_eq free.toList values
      rcases hraise : raise free.toList values with ⟨raised, found⟩
      rw [hraise] at hcarry
      cases found <;> simp_all [next, odometer, Odometer.next]

theorem calls_odometer (count : Nat) (walk : Walk) :
    walk.odometer.calls count = walk.calls count := by
  induction count generalizing walk with
  | zero => rfl
  | succ count ih => rw [Odometer.calls, calls, next_odometer, ih]

/-- A walk gives what the odometer gives, however often one asks. -/
theorem calls_start_eq (symbols : Symbols) (seed : Seed) (count : Nat) :
    (start symbols seed).calls count = (Odometer.start symbols seed).calls count := by
  rw [← odometer_start, calls_odometer]

/-- **The loop over the rows ends**: asking a new walk until there is none gives the rows of the
odometer. -/
theorem yields_start_iff (symbols : Symbols) (seed : Seed) (items : List (Array Bool)) :
    Yields next (start symbols seed) items ↔ items = (Odometer.start symbols seed).rows.toList := by
  rw [← Odometer.yields_start_iff, ← odometer_start]
  exact (yields_iff_of_simulates next_odometer).symm

/-- What a loop makes of the rows of a walk is what a fold over the odometer makes of them. -/
theorem foldl_of_yields {α : Type} {symbols : Symbols} {seed : Seed} {items : List (Array Bool)}
    (h : Yields next (start symbols seed) items) (f : α → Array Bool → α) (a : α) :
    items.foldl f a = (Odometer.start symbols seed).fold f a := by
  rw [(yields_start_iff symbols seed items).1 h, Odometer.fold_eq_foldl]

end Walk

end Consequence
