import Mathlib
import Consequence.Evaluation.Odometer
import Consequence.Proofs.Symbols

/-!
# The odometer counts

`spell free k row` is the row in which the slots `free` hold the binary digits of `k`, the lowest
digit first, and all other slots are those of `row`.

* `Odometer.carry_spell`: one carry goes from `k` to `k + 1`, up to the last number that has room.
* `Odometer.next_reached`: one call goes from the odometer at a number to the one at the next number, also
  behind the last row.
* `Odometer.foldRows_reached`: so a run goes through successive numbers, as far as there is room.
* `Odometer.fold_start`: a walk from the start goes through all numbers below `2 ^ n` for `n` free
  slots, once each and in order, and more rounds change nothing (`Odometer.foldRows_start_of_le`).
-/

set_option autoImplicit false

namespace Consequence.Odometer

/-! ## Rows -/

/-- The row in which the slots `free` hold the binary digits of `k`, the lowest digit first. -/
def spell : List Nat → Nat → Array Bool → Array Bool
  | [], _, row => row
  | slot :: free, k, row => spell free (k / 2) (row.setIfInBounds slot (k.testBit 0))

variable {free : List Nat} {slot k : Nat} {row : Array Bool}

theorem getD_setIfInBounds_self (h : slot < row.size) (b : Bool) :
    (row.setIfInBounds slot b).getD slot false = b := by
  simp [Array.getD_eq_getD_getElem?, h]

theorem getD_setIfInBounds_ne {other : Nat} (h : slot ≠ other) (b : Bool) :
    (row.setIfInBounds slot b).getD other false = row.getD other false := by
  simp [Array.getD_eq_getD_getElem?, h]

theorem size_spell : (spell free k row).size = row.size := by
  induction free generalizing k row with
  | nil => rfl
  | cons slot free ih => rw [spell, ih, Array.size_setIfInBounds]

theorem getD_spell_of_not_mem (h : slot ∉ free) :
    (spell free k row).getD slot false = row.getD slot false := by
  induction free generalizing k row with
  | nil => rfl
  | cons other free ih =>
    rw [List.mem_cons, not_or] at h
    rw [spell, ih h.2, getD_setIfInBounds_ne (Ne.symm h.1)]

/-- The `i`-th free slot holds the digit `i`. -/
theorem getD_spell_getElem (hnodup : free.Nodup) (hbound : ∀ slot ∈ free, slot < row.size) {i : Nat}
    (hi : i < free.length) : (spell free k row).getD free[i] false = k.testBit i := by
  induction free generalizing k row i with
  | nil => exact absurd hi (Nat.not_lt_zero i)
  | cons slot free ih =>
    rw [List.nodup_cons] at hnodup
    rw [spell]
    cases i with
    | zero =>
      rw [List.getElem_cons_zero, getD_spell_of_not_mem hnodup.1,
        getD_setIfInBounds_self (hbound slot List.mem_cons_self)]
    | succ i =>
      have hi' : i < free.length := Nat.lt_of_succ_lt_succ hi
      have hbound' : ∀ s ∈ free, s < (row.setIfInBounds slot (k.testBit 0)).size := fun s hs => by
        simpa using hbound s (List.mem_cons_of_mem slot hs)
      rw [List.getElem_cons_succ, ih hnodup.2 hbound' hi', Nat.testBit_succ]

/-- A slot that is not free can be set before or after. -/
theorem setIfInBounds_spell (h : slot ∉ free) (b : Bool) :
    (spell free k row).setIfInBounds slot b = spell free k (row.setIfInBounds slot b) := by
  induction free generalizing k row with
  | nil => rfl
  | cons other free ih =>
    rw [List.mem_cons, not_or] at h
    rw [spell, spell, ih h.2, Array.setIfInBounds_comm _ _ (Ne.symm h.1)]

/-- The number 0 is spelled where all free slots are false. -/
theorem spell_zero (h : ∀ slot ∈ free, row.getD slot false = false) : spell free 0 row = row := by
  induction free with
  | nil => rfl
  | cons slot free ih =>
    have hset : row.setIfInBounds slot false = row := by
      refine Array.ext (by simp) fun i h₁ h₂ => ?_
      rw [Array.getElem_setIfInBounds (by simpa using h₁)]
      split
      · next he =>
        have := h slot List.mem_cons_self
        subst he
        simpa [Array.getD_eq_getD_getElem?, h₂] using this.symm
      · rfl
    rw [spell, Nat.zero_testBit, hset, Nat.zero_div]
    exact ih fun s hs => h s (List.mem_cons_of_mem slot hs)

/-! ## Steps -/

/-- One carry goes from a number to the next one that the free slots have room for. -/
theorem carry_spell (hnodup : free.Nodup) (hbound : ∀ slot ∈ free, slot < row.size)
    (hk : k < 2 ^ free.length) :
    carry free (spell free k row) =
      if k + 1 < 2 ^ free.length then some (spell free (k + 1) row) else none := by
  induction free generalizing k row with
  | nil => simp_all [carry]
  | cons slot free ih =>
    have hnodup' := List.nodup_cons.1 hnodup
    have hslot : slot < row.size := hbound slot List.mem_cons_self
    have hdigit : (spell (slot :: free) k row).getD slot false = k.testBit 0 :=
      getD_spell_getElem (i := 0) hnodup hbound (Nat.zero_lt_succ _)
    rw [List.length_cons, Nat.pow_succ] at hk ⊢
    rw [carry, hdigit]
    have hset (b : Bool) : (spell (slot :: free) k row).setIfInBounds slot b =
        spell free (k / 2) (row.setIfInBounds slot b) := by
      rw [spell, setIfInBounds_spell hnodup'.1, Array.setIfInBounds_setIfInBounds]
    rw [hset, hset]
    rcases Nat.mod_two_eq_zero_or_one k with hmod | hmod
    · -- the lowest digit becomes 1 and nothing is carried
      have hbit : k.testBit 0 = false := by simp [hmod]
      have hbit' : (k + 1).testBit 0 = true := by simp; omega
      rw [hbit, if_neg Bool.false_ne_true, if_pos (by omega), spell, hbit',
        show (k + 1) / 2 = k / 2 by omega]
    · -- the lowest digit becomes 0 and the carry goes on
      have hbit : k.testBit 0 = true := by simp [hmod]
      have hbit' : (k + 1).testBit 0 = false := by simp; omega
      have hbound' : ∀ s ∈ free, s < (row.setIfInBounds slot false).size := fun s hs => by
        simpa using hbound s (List.mem_cons_of_mem slot hs)
      rw [hbit, if_pos rfl, ih hnodup'.2 hbound' (by omega), spell, hbit',
        show (k + 1) / 2 = k / 2 + 1 by omega]
      simp only [show k + 1 < 2 ^ free.length * 2 ↔ k / 2 + 1 < 2 ^ free.length by omega]

/-- The odometer that gives the row for `k` next, if the free slots have room for this number. -/
def reached (free : List Nat) (row : Array Bool) (k : Nat) : Odometer :=
  ⟨free, if k < 2 ^ free.length then some (spell free k row) else none⟩

/-- One call: behind the last number there is none, however often one asks. -/
theorem next_reached (hnodup : free.Nodup) (hbound : ∀ slot ∈ free, slot < row.size) (k : Nat) :
    (reached free row k).next = ((reached free row k).upcoming, reached free row (k + 1)) := by
  by_cases hk : k < 2 ^ free.length
  · simp only [next, reached, if_pos hk, Option.bind_some]
    rw [carry_spell hnodup hbound hk]
  · have hlast : ¬ k + 1 < 2 ^ free.length := by omega
    simp only [next, reached, if_neg hk, if_neg hlast, Option.bind_none]

/-! ## Runs -/

/-- Rounds beyond the numbers that have room change nothing. -/
theorem foldRows_reached {α : Type} (f : α → Array Bool → α) (hnodup : free.Nodup)
    (hbound : ∀ slot ∈ free, slot < row.size) (count k : Nat) (a : α) :
    foldRows f count (reached free row k) a =
      ((List.range' k (min count (2 ^ free.length - k))).map (spell free · row)).foldl f a := by
  induction count generalizing k a with
  | zero => simp [foldRows]
  | succ count ih =>
    rw [foldRows, next_reached hnodup hbound]
    by_cases hk : k < 2 ^ free.length
    · have hrounds : min (count + 1) (2 ^ free.length - k) =
          min count (2 ^ free.length - (k + 1)) + 1 := by omega
      rw [hrounds, List.range'_succ, List.map_cons, List.foldl_cons, ← ih]
      simp only [reached, if_pos hk]
    · have hrounds : min (count + 1) (2 ^ free.length - k) = 0 := by omega
      rw [hrounds, List.range'_zero, List.map_nil, List.foldl_nil]
      simp only [reached, if_neg hk]

section
variable (symbols : Symbols) (seed : Seed)

theorem nodup_free_start : (start symbols seed).free.Nodup :=
  List.nodup_range.filter _

theorem mem_free_start :
    slot ∈ (start symbols seed).free ↔
      slot < symbols.size ∧ seed.contains (symbols.nameAt slot) = false := by
  simp [start]

/-- The free slots are slots of the row that a walk starts with. -/
theorem lt_size_of_mem_free (h : slot ∈ (start symbols seed).free) :
    slot < (symbols.names.map fun name => seed.getD name false).size := by
  rw [Array.size_map]
  exact ((mem_free_start symbols seed).1 h).1

/-- The value of a slot in the row that a walk starts with: the pinned value, or false. -/
theorem getD_start (h : slot < symbols.size) :
    (symbols.names.map fun name => seed.getD name false).getD slot false =
      seed.getD (symbols.nameAt slot) false := by
  have h' : slot < symbols.names.size := h
  simp [Symbols.nameAt, Array.getD_eq_getD_getElem?, h']

/-- The row for the number `k` of a walk from the start. -/
def rowAt (k : Nat) : Array Bool :=
  spell (start symbols seed).free k (symbols.names.map fun name => seed.getD name false)

/-- A pinned slot holds its pinned value in every row. -/
theorem getD_rowAt_of_pinned (h : slot < symbols.size)
    (hpinned : seed.contains (symbols.nameAt slot) = true) (k : Nat) :
    (rowAt symbols seed k).getD slot false = seed.getD (symbols.nameAt slot) false := by
  have hnot : slot ∉ (start symbols seed).free := by simp [mem_free_start, hpinned]
  rw [rowAt, getD_spell_of_not_mem hnot, getD_start symbols seed h]

/-- The `i`-th free slot holds the digit `i` of the number of the row. -/
theorem getD_rowAt_free {i : Nat} (hi : i < (start symbols seed).free.length) (k : Nat) :
    (rowAt symbols seed k).getD (start symbols seed).free[i] false = k.testBit i :=
  getD_spell_getElem (nodup_free_start symbols seed)
    (fun _ => lt_size_of_mem_free symbols seed) hi

/-- A walk starts with the row for 0. -/
theorem rowAt_zero : rowAt symbols seed 0 = symbols.names.map fun name => seed.getD name false := by
  refine spell_zero fun slot hslot => ?_
  obtain ⟨hlt, hfree⟩ := (mem_free_start symbols seed).1 hslot
  rw [getD_start symbols seed hlt, Std.TreeMap.getD_eq_fallback_of_contains_eq_false hfree]

theorem start_eq :
    start symbols seed = reached (start symbols seed).free
      (symbols.names.map fun name => seed.getD name false) 0 := by
  have hfirst := rowAt_zero symbols seed
  rw [rowAt] at hfirst
  rw [reached, if_pos (Nat.two_pow_pos _), hfirst]
  rfl

/-- A walk goes through the rows for the first numbers, as many as there are rounds and rows. -/
theorem foldRows_start {α : Type} (f : α → Array Bool → α) (count : Nat) (a : α) :
    foldRows f count (start symbols seed) a =
      ((List.range (min count (2 ^ (start symbols seed).free.length))).map
        (rowAt symbols seed)).foldl f a := by
  conv_lhs => rw [start_eq]
  rw [foldRows_reached f (nodup_free_start symbols seed)
    (fun slot => lt_size_of_mem_free symbols seed), Nat.sub_zero, List.range_eq_range']
  rfl

theorem fold_start {α : Type} (f : α → Array Bool → α) (a : α) :
    (start symbols seed).fold f a =
      ((List.range (2 ^ (start symbols seed).free.length)).map (rowAt symbols seed)).foldl f a := by
  rw [fold, Nat.pow_eq, foldRows_start, Nat.min_self]

/-- More rounds than a walk through all rows has change nothing. -/
theorem foldRows_start_of_le {α : Type} (f : α → Array Bool → α) (a : α) {count : Nat}
    (h : 2 ^ (start symbols seed).free.length ≤ count) :
    foldRows f count (start symbols seed) a = (start symbols seed).fold f a := by
  rw [foldRows_start, fold_start, Nat.min_eq_right h]

end

end Consequence.Odometer
