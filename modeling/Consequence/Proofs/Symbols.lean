import Consequence.Symbols

/-!
# Symbol tables hold what was put in

* `Symbols.mem_extend`, `Symbols.mem_foldl_extend`: a table that was extended by formulas holds its
  old names and the symbols of the formulas.
* `Symbols.toList_foldl_insert`: its names are in order of first appearance.
* `Symbols.nameAt_slotOf`, `Symbols.slotOf_nameAt`: names and slots are mutually inverse.
-/

set_option autoImplicit false

namespace Consequence.Symbols

variable {symbols : Symbols} {name : String} {slot : Nat}

/-! ## Names -/

@[simp] theorem not_mem_empty : name ∉ empty.names := by
  simp [empty]

theorem mem_foldl_insert {others : List String} :
    name ∈ (others.foldl insert symbols).names ↔ name ∈ symbols.names ∨ name ∈ others := by
  induction others generalizing symbols with
  | nil => simp
  | cons other others ih => rw [List.foldl_cons, ih, mem_insert, List.mem_cons, or_assoc]

theorem mem_extend {f : Formula} :
    name ∈ (symbols.extend f).names ↔ name ∈ symbols.names ∨ name ∈ f.atoms :=
  mem_foldl_insert

theorem mem_foldl_extend {fs : List Formula} :
    name ∈ (fs.foldl extend symbols).names ↔
      name ∈ symbols.names ∨ ∃ f ∈ fs, name ∈ f.atoms := by
  induction fs generalizing symbols with
  | nil => simp
  | cons f fs ih => simp [ih, mem_extend, or_assoc]

/-- Extending by formulas inserts their symbols from left to right. -/
theorem foldl_extend (fs : List Formula) (symbols : Symbols) :
    fs.foldl extend symbols = (fs.flatMap Formula.atoms).foldl insert symbols := by
  rw [List.foldl_flatMap]
  rfl

/-- A form adds the symbols of its operands, one operand after the other. -/
theorem extend_node (symbols : Symbols) (op : Connective) (fs : List Formula) :
    symbols.extend (.node op fs) = fs.foldl extend symbols := by
  rw [foldl_extend, extend, Formula.atoms_node]

theorem insert_of_mem (h : name ∈ symbols.names) : symbols.insert name = symbols := by
  rw [insert, dif_pos h]

theorem names_insert_of_not_mem (h : name ∉ symbols.names) :
    (symbols.insert name).names = symbols.names.push name := by
  rw [insert, dif_neg h]

theorem foldl_insert_of_mem {others : List String} (h : ∀ name ∈ others, name ∈ symbols.names) :
    others.foldl insert symbols = symbols := by
  induction others with
  | nil => rfl
  | cons other others ih =>
    rw [List.forall_mem_cons] at h
    rw [List.foldl_cons, insert_of_mem h.1, ih h.2]

/-- Names that are inserted come behind those that are there, in order of first appearance. -/
theorem toList_foldl_insert (others : List String) (symbols : Symbols) :
    (others.foldl insert symbols).names.toList =
      symbols.names.toList ++ (others.removeAll symbols.names.toList).eraseDups := by
  induction others generalizing symbols with
  | nil => simp [List.removeAll]
  | cons other others ih =>
    rw [List.foldl_cons, ih, List.cons_removeAll]
    by_cases h : other ∈ symbols.names
    · rw [insert_of_mem h]
      simp [h]
    · -- what is left of the others is what differs from all names and from the new one
      have hothers : others.removeAll (symbols.names.toList ++ [other]) =
          (others.removeAll symbols.names.toList).filter fun name => !name == other := by
        rw [List.removeAll, List.removeAll, List.filter_filter]
        refine List.filter_congr fun name _ => ?_
        rw [Bool.eq_iff_iff]
        simp [and_comm]
      rw [names_insert_of_not_mem h, Array.toList_push, hothers, List.append_assoc]
      simp [h, List.eraseDups_cons]

/-- The names of a new table, in order of first appearance. -/
theorem toList_foldl_insert_empty (others : List String) :
    (others.foldl insert empty).names.toList = others.eraseDups := by
  rw [toList_foldl_insert]
  simp [empty, List.removeAll_nil]

/-! ## Slots -/

theorem slotOf_lt (h : name ∈ symbols.names) : symbols.slotOf name < symbols.size :=
  Array.idxOf_lt_length_of_mem h

theorem nameAt_eq_get (h : slot < symbols.size) :
    symbols.nameAt slot = symbols.names.toList.get ⟨slot, h⟩ := by
  simp only [size] at h
  simp [nameAt, Array.getD_eq_getD_getElem?, h]

theorem nameAt_mem (h : slot < symbols.size) : symbols.nameAt slot ∈ symbols.names := by
  rw [nameAt_eq_get h, ← Array.mem_toList_iff]
  exact List.getElem_mem _

/-- The names in order are those in the successive slots. -/
theorem toList_names (symbols : Symbols) :
    symbols.names.toList = (List.range symbols.size).map symbols.nameAt := by
  refine List.ext_getElem (by simp [size]) fun slot h₁ h₂ => ?_
  rw [List.getElem_map, List.getElem_range]
  exact (nameAt_eq_get h₁).symm

theorem slotOf_eq_idxOf : symbols.slotOf name = symbols.names.toList.idxOf name := by
  rw [slotOf, ← List.idxOf_toArray]

/-- The name in the slot of a name is that name. -/
theorem nameAt_slotOf (h : name ∈ symbols.names) : symbols.nameAt (symbols.slotOf name) = name := by
  have hlt := slotOf_lt h
  rw [nameAt_eq_get hlt]
  simp only [slotOf_eq_idxOf]
  exact List.getElem_idxOf _

/-- The slot of the name in a slot is that slot. -/
theorem slotOf_nameAt (h : slot < symbols.size) : symbols.slotOf (symbols.nameAt slot) = slot := by
  rw [nameAt_eq_get h, slotOf_eq_idxOf]
  exact symbols.distinct.idxOf_getElem slot h

/-- A name stands in a slot just if it has this slot. -/
theorem getElem?_names_eq_some_iff :
    symbols.names[slot]? = some name ↔ name ∈ symbols.names ∧ symbols.slotOf name = slot := by
  have hname (h : slot < symbols.size) : symbols.names[slot]? = some (symbols.nameAt slot) := by
    rw [nameAt_eq_get h, List.get_eq_getElem, Array.getElem_toList]
    exact Array.getElem?_eq_getElem h
  constructor
  · intro h
    obtain ⟨hslot, -⟩ := Array.getElem?_eq_some_iff.1 h
    rw [hname hslot, Option.some.injEq] at h
    rw [← h]
    exact ⟨nameAt_mem hslot, slotOf_nameAt hslot⟩
  · rintro ⟨hmem, rfl⟩
    rw [hname (slotOf_lt hmem), nameAt_slotOf hmem]

theorem allot_of_mem (h : name ∈ symbols.names) :
    symbols.allot name = (symbols.slotOf name, symbols) := by
  rw [allot, insert_of_mem h]

/-- A new name gets the next slot. -/
theorem allot_of_not_mem (h : name ∉ symbols.names) : (symbols.allot name).1 = symbols.size := by
  have hlast : (symbols.insert name).names[symbols.size]? = some name := by
    rw [names_insert_of_not_mem h, size, Array.getElem?_push_size]
  exact (getElem?_names_eq_some_iff.1 hlast).2

end Consequence.Symbols
