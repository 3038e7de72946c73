import Mathlib
import Consequence.Proofs.Counting
import Consequence.Proofs.Iteration

/-!
# Every assignment once

What an odometer gives when it is asked again and again: each row that completes the pinned values, in
the order of the numbers that the free slots spell, and then nothing.

* `Odometer.calls_reached`: calls go through the numbers.
* `Odometer.completes_iff`: the rows for the numbers are the rows that agree with the seed.
* `Odometer.calls_start`: what any number of calls give.
* `Odometer.yields_start_iff`: a loop that asks until there is none ends, and gives these rows.
-/

set_option autoImplicit false

namespace Consequence.Odometer

/-- What the next `count` calls give, one after the other. -/
def calls : Nat → Odometer → List (Option (Array Bool))
  | 0, _ => []
  | count + 1, odometer => odometer.next.1 :: calls count odometer.next.2

/-- The row gives every slot of the table a value, and the pinned ones their pinned values. -/
structure Completes (symbols : Symbols) (seed : Seed) (row : Array Bool) : Prop where
  size_eq : row.size = symbols.size
  pinned : ∀ slot value, slot < symbols.size → seed[symbols.nameAt slot]? = some value →
    row[slot]? = some value

/-! ## Calls -/

section
variable {free : List Nat} {row : Array Bool}

theorem calls_reached (hnodup : free.Nodup) (hbound : ∀ slot ∈ free, slot < row.size)
    (count k : Nat) :
    (reached free row k).calls count =
      (List.range' k count).map fun l => (reached free row l).upcoming := by
  induction count generalizing k with
  | zero => rfl
  | succ count ih => rw [calls, next_reached hnodup hbound, ih, List.range'_succ, List.map_cons]

end

/-! ## Rows -/

section
variable {symbols : Symbols} {seed : Seed} {row : Array Bool} {slot k : Nat}

theorem rows_start (symbols : Symbols) (seed : Seed) :
    (start symbols seed).rows.toList =
      (List.range (2 ^ (start symbols seed).free.length)).map (rowAt symbols seed) := by
  rw [rows, fold_start]
  simp

theorem getElem?_eq_some_getD (h : slot < row.size) : row[slot]? = some (row.getD slot false) := by
  simp [Array.getD_eq_getD_getElem?, h]

theorem size_rowAt (k : Nat) : (rowAt symbols seed k).size = symbols.size := by
  rw [rowAt, size_spell, Array.size_map, Symbols.size]

/-- The `i`-th free slot holds the digit `i`. -/
theorem getElem?_rowAt_free {i : Nat} (h : (start symbols seed).free[i]? = some slot) (k : Nat) :
    (rowAt symbols seed k)[slot]? = some (k.testBit i) := by
  obtain ⟨hi, rfl⟩ := List.getElem?_eq_some_iff.1 h
  have hslot := (mem_free_start symbols seed).1 (List.getElem_mem hi)
  rw [getElem?_eq_some_getD (by rw [size_rowAt]; exact hslot.1), getD_rowAt_free symbols seed hi]

theorem completes_rowAt (k : Nat) : Completes symbols seed (rowAt symbols seed k) where
  size_eq := size_rowAt k
  pinned slot value hslot hpin := by
    have hcontains : seed.contains (symbols.nameAt slot) = true := by
      rw [Std.TreeMap.contains_eq_isSome_getElem?, hpin]
      rfl
    rw [getElem?_eq_some_getD (by rw [size_rowAt]; exact hslot),
      getD_rowAt_of_pinned symbols seed hslot hcontains, Std.TreeMap.getD_eq_getD_getElem?, hpin,
      Option.getD_some]

/-- A row that agrees with the seed is the row for some number. -/
theorem Completes.exists_rowAt (h : Completes symbols seed row) :
    ∃ k < 2 ^ (start symbols seed).free.length, rowAt symbols seed k = row := by
  -- the values of the row, and those of the seed for names that are not in the table
  let v : Valuation := fun name => seed.getD name (symbols.valuation row name)
  have hagrees : seed.Agrees v := fun name value hpin => by
    simp only [v, Std.TreeMap.getD_eq_getD_getElem?, hpin, Option.getD_some]
  obtain ⟨k, hk, hrow⟩ := @exists_rowValuation symbols seed v hagrees
  refine ⟨k, hk, Array.ext_getElem? fun slot => ?_⟩
  by_cases hslot : slot < symbols.size
  · have hvalue : v (symbols.nameAt slot) = row.getD slot false := by
      cases hpin : seed[symbols.nameAt slot]? with
      | none =>
        simp only [v, Std.TreeMap.getD_eq_getD_getElem?, hpin, Option.getD_none, Symbols.valuation,
          Symbols.slotOf_nameAt hslot]
      | some value =>
        rw [hagrees _ value hpin, Array.getD_eq_getD_getElem?, h.pinned slot value hslot hpin,
          Option.getD_some]
    have hspelled := hrow (symbols.nameAt slot) (Symbols.nameAt_mem hslot)
    rw [rowValuation_eq, Symbols.slotOf_nameAt hslot, hvalue] at hspelled
    rw [getElem?_eq_some_getD (by rw [size_rowAt]; exact hslot), hspelled,
      getElem?_eq_some_getD (by rw [h.size_eq]; exact hslot)]
  · rw [Array.getElem?_eq_none (by rw [size_rowAt]; omega),
      Array.getElem?_eq_none (by rw [h.size_eq]; omega)]

theorem completes_iff :
    Completes symbols seed row ↔
      ∃ k < 2 ^ (start symbols seed).free.length, rowAt symbols seed k = row := by
  refine ⟨Completes.exists_rowAt, ?_⟩
  rintro ⟨k, -, rfl⟩
  exact completes_rowAt k

theorem rowAt_inj {l : Nat} (hk : k < 2 ^ (start symbols seed).free.length)
    (hl : l < 2 ^ (start symbols seed).free.length)
    (h : rowAt symbols seed k = rowAt symbols seed l) : k = l := by
  refine rowValuation_inj hk hl fun name _ => ?_
  rw [rowValuation_eq, rowValuation_eq, h]

end

/-- Calls from the start go through the numbers from 0 on. -/
theorem calls_start_eq_map (symbols : Symbols) (seed : Seed) (count : Nat) :
    (start symbols seed).calls count = (List.range count).map fun k =>
      if k < 2 ^ (start symbols seed).free.length then some (rowAt symbols seed k) else none := by
  rw [List.range_eq_range']
  conv_lhs => rw [start_eq]
  exact calls_reached (nodup_free_start symbols seed)
    (fun slot => lt_size_of_mem_free symbols seed) count 0

/-- The first rows, and then nothing. -/
theorem calls_start_eq_append (symbols : Symbols) (seed : Seed) (count : Nat) :
    (start symbols seed).calls count =
      ((start symbols seed).rows.toList.map some).take count ++
        List.replicate (count - (start symbols seed).rows.toList.length) none := by
  rw [calls_start_eq_map, rows_start, List.length_map, List.length_range]
  generalize 2 ^ (start symbols seed).free.length = total
  refine List.ext_getElem? fun i => ?_
  by_cases hi : i < count
  · by_cases hrow : i < total
    · rw [List.getElem?_append_left (by simp; omega)]
      simp [hi, hrow]
    · rw [List.getElem?_append_right (by simp; omega)]
      have hbehind : i - min count total < count - total := by omega
      simp [hi, hrow, List.getElem?_replicate_of_lt hbehind]
  · rw [List.getElem?_eq_none (by simp; omega), List.getElem?_eq_none (by simp; omega)]

/-- **The odometer gives every assignment once**: whatever symbols have slots and whatever is pinned,
asking for the next row `count` times gives the rows in order, as far as there are so many, and then
nothing. There are `2 ^ f` rows for `f` free slots, which are the slots without a pinned value in
ascending order. In the row for the number `k`, counted from 0, the `i`-th free slot has the digit `i` of
`k`. The rows differ from each other and are those that have a value for every slot and the pinned value
for every pinned one. -/
theorem calls_start (symbols : Symbols) (seed : Seed) :
    let odometer := start symbols seed
    let rows := odometer.rows.toList
    (odometer.free.Pairwise (· < ·) ∧
        ∀ slot, slot ∈ odometer.free ↔ slot < symbols.size ∧ symbols.nameAt slot ∉ seed) ∧
      rows.length = 2 ^ odometer.free.length ∧
      (∀ count, odometer.calls count =
        (rows.map some).take count ++ List.replicate (count - rows.length) none) ∧
      (∀ (k : Nat) row, rows[k]? = some row → ∀ i slot, odometer.free[i]? = some slot →
        row[slot]? = some (k.testBit i)) ∧
      rows.Nodup ∧
      ∀ row, row ∈ rows ↔ Completes symbols seed row := by
  intro odometer rows
  have hrows : rows = _ := rows_start symbols seed
  refine ⟨⟨?ascending, ?free⟩, ?count, calls_start_eq_append symbols seed, ?digits, ?distinct, ?all⟩
  case ascending => exact List.pairwise_lt_range.filter _
  case free =>
    intro slot
    rw [mem_free_start, ← Std.TreeMap.contains_iff_mem, Bool.not_eq_true]
  case count => rw [hrows, List.length_map, List.length_range]
  case digits =>
    intro k row hrow i slot hslot
    rw [hrows, List.getElem?_map, Option.map_eq_some_iff] at hrow
    obtain ⟨l, hl, rfl⟩ := hrow
    obtain ⟨-, rfl⟩ := List.getElem?_eq_some_iff.1 hl
    rw [List.getElem_range]
    exact getElem?_rowAt_free hslot k
  case distinct =>
    rw [hrows]
    refine List.nodup_range.map_on fun k hk l hl h => ?_
    exact rowAt_inj (List.mem_range.1 hk) (List.mem_range.1 hl) h
  case all =>
    intro row
    rw [completes_iff, hrows]
    simp

/-- Four slots, of which the second is pinned to true and the third to false. -/
def interleaved : Odometer :=
  start (["a", "b", "c", "d"].foldl Symbols.insert .empty)
    (.ofFormulas [.atom "b", .node .not [.atom "c"]])

/-- The third row has the digits of 2 in the first and the last slot, and two of six calls give
nothing. -/
theorem calls_start_interleaved :
    interleaved.rows.toList[2]? = some #[false, true, false, true] ∧ interleaved.free[1]? = some 3 ∧
      #[false, true, false, true][3]? = some (Nat.testBit 2 1) ∧
      interleaved.calls 6 = [some #[false, true, false, false], some #[true, true, false, false],
        some #[false, true, false, true], some #[true, true, false, true], none, none] := by
  have hrow : interleaved.rows.toList[2]? = some #[false, true, false, true] := by cbv
  have hslot : interleaved.free[1]? = some 3 := by cbv
  have hrows : interleaved.rows.toList = [#[false, true, false, false], #[true, true, false, false],
      #[false, true, false, true], #[true, true, false, true]] := by cbv
  obtain ⟨-, -, hcalls, hdigits, -, -⟩ := calls_start
    (["a", "b", "c", "d"].foldl Symbols.insert .empty)
    (.ofFormulas [.atom "b", .node .not [.atom "c"]])
  refine ⟨hrow, hslot, hdigits 2 _ hrow 1 3 hslot, ?_⟩
  rw [interleaved, hcalls, ← interleaved, hrows]
  rfl

/-! ## Asking until there is none -/

/-- With `count` numbers left there are as many rows, and then there is none. -/
theorem yields_reached {free : List Nat} {row : Array Bool} (hnodup : free.Nodup)
    (hbound : ∀ slot ∈ free, slot < row.size) (count : Nat) {k : Nat}
    (hcount : k + count = 2 ^ free.length) :
    Yields next (reached free row k) ((List.range' k count).map (spell free · row)) := by
  induction count generalizing k with
  | zero =>
    refine .done ?_
    rw [next_reached hnodup hbound, reached, if_neg (by omega)]
  | succ count ih =>
    have hrest := ih (k := k + 1) (by omega)
    rw [List.range'_succ, List.map_cons]
    refine .item ?_ (by rwa [next_reached hnodup hbound])
    rw [next_reached hnodup hbound, reached, if_pos (by omega)]

/-- The bound on the rounds of a fold is what the loop needs: without one, asking from the start until
there is none gives all rows and ends. -/
theorem yields_start_iff (symbols : Symbols) (seed : Seed) (items : List (Array Bool)) :
    Yields next (start symbols seed) items ↔ items = (start symbols seed).rows.toList := by
  refine Yields.iff_eq ?_
  have hrows := yields_reached (nodup_free_start symbols seed)
    (fun _ => lt_size_of_mem_free symbols seed) _ (Nat.zero_add _)
  rw [← start_eq, ← List.range_eq_range'] at hrows
  rw [rows_start]
  exact hrows

theorem fold_eq_foldl {α : Type} (symbols : Symbols) (seed : Seed) (f : α → Array Bool → α) (a : α) :
    (start symbols seed).fold f a = (start symbols seed).rows.toList.foldl f a := by
  rw [rows_start, fold_start]

end Consequence.Odometer
