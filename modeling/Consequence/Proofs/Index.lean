import Mathlib
import Consequence.Proofs.Compilation

/-!
# Tables with an index

A table finds names by searching them. With a hash index beside the names it finds them at once, and then
each name is stored twice: in the order in which the names came and under its hash.

* `NameIndex`, `SlotIndex`: the names of a set and the slots of a table, each with an index.
* `NameIndex.Matches.insert`, `SlotIndex.Matches.allot`: one step keeps what is stored twice in agreement and
  gives the answer of the table without an index.
* `NameIndex.matches_foldl_extend`, `SlotIndex.matches_run`: so it is for walks through formulas and for runs.
* `Symbols.toList_names_run`: names have slots in the order of their first use.
* `Symbols.indexed_alike`: sets, tables and tables made of sets after any uses.
-/

set_option autoImplicit false

namespace Consequence

/-! ## Names -/

/-- Distinct names in the order in which they came, and the same names by their hashes. -/
structure NameIndex where
  names : Array String := #[]
  seen : Std.HashSet String := ∅

namespace NameIndex

/-- Adds a name behind the others, unless it was seen already. -/
def insert (set : NameIndex) (name : String) : NameIndex :=
  if set.seen.contains name then set
  else { names := set.names.push name, seen := set.seen.insert name }

mutual

/-- Adds every symbol on a walk through a formula, operands from left to right. -/
def extend (set : NameIndex) : Formula → NameIndex
  | .atom name => set.insert name
  | .node _ fs => set.extendAll fs

/-- Adds every symbol on a walk through formulas. -/
def extendAll (set : NameIndex) : List Formula → NameIndex
  | [] => set
  | f :: fs => (set.extend f).extendAll fs

end

/-- The names are those of a table, and the index holds the same names. -/
structure Matches (set : NameIndex) (symbols : Symbols) : Prop where
  names : set.names = symbols.names
  seen : ∀ name, set.seen.contains name = true ↔ name ∈ set.names

variable {set : NameIndex} {symbols : Symbols} {name : String} {f : Formula} {fs : List Formula}

theorem matches_empty : Matches {} .empty := by
  refine ⟨rfl, fun name => ?_⟩
  simp

theorem Matches.insert (h : set.Matches symbols) (name : String) :
    (set.insert name).Matches (symbols.insert name) := by
  have hseen := h.seen name
  unfold NameIndex.insert
  by_cases hname : name ∈ symbols.names
  · rw [if_pos (hseen.2 (by rwa [h.names])), Symbols.insert_of_mem hname]
    exact h
  · rw [if_neg (mt hseen.1 (by rwa [h.names]))]
    refine ⟨by rw [h.names, Symbols.names_insert_of_not_mem hname], fun other => ?_⟩
    rw [Std.HashSet.contains_insert, Bool.or_eq_true, beq_iff_eq, h.seen, Array.mem_push, or_comm,
      eq_comm]

theorem insert_of_seen (h : set.seen.contains name = true) : set.insert name = set := by
  rw [insert, if_pos h]

/-- A walk meets the atoms from left to right. -/
theorem extend_eq_foldl (set : NameIndex) (f : Formula) :
    set.extend f = f.atoms.foldl insert set := by
  induction f using Formula.induct generalizing set with
  | atom name => rw [extend, Formula.atoms_atom, List.foldl_cons, List.foldl_nil]
  | node op fs ih =>
    rw [extend, Formula.atoms_node]
    induction fs generalizing set with
    | nil => rw [extendAll, List.flatMap_nil, List.foldl_nil]
    | cons f fs ihs =>
      obtain ⟨hf, hfs⟩ := List.forall_mem_cons.1 ih
      rw [extendAll, ihs hfs, hf, List.flatMap_cons, List.foldl_append]

theorem Matches.extend (h : set.Matches symbols) (f : Formula) :
    (set.extend f).Matches (symbols.extend f) := by
  rw [extend_eq_foldl, Symbols.extend]
  induction f.atoms generalizing set symbols with
  | nil => exact h
  | cons name names ih => exact ih (h.insert name)

theorem matches_foldl_extend (h : set.Matches symbols) (fs : List Formula) :
    (fs.foldl extend set).Matches (fs.foldl Symbols.extend symbols) := by
  induction fs generalizing set symbols with
  | nil => exact h
  | cons f fs ih => exact ih (h.extend f)

theorem foldl_insert_of_seen {names : List String}
    (h : ∀ name ∈ names, set.seen.contains name = true) : names.foldl insert set = set := by
  induction names with
  | nil => rfl
  | cons name names ih =>
    rw [List.forall_mem_cons] at h
    rw [List.foldl_cons, insert_of_seen h.1, ih h.2]

end NameIndex

/-! ## Slots -/

/-- Distinct names in the order of their slots, and the slots by the hashes of their names. -/
structure SlotIndex where
  names : Array String := #[]
  slots : Std.HashMap String Nat := ∅

namespace SlotIndex

/-- The slot of a name, the next one if it has none, and the table afterwards. -/
def allot (table : SlotIndex) (name : String) : Nat × SlotIndex :=
  match table.slots[name]? with
  | some slot => (slot, table)
  | none => (table.names.size,
      { names := table.names.push name, slots := table.slots.insert name table.names.size })

mutual

/-- Replaces the symbols of a formula by their slots and gives slots to new ones on the way. -/
def compile (table : SlotIndex) : Formula → Circuit × SlotIndex
  | .atom name => (.input (table.allot name).1, (table.allot name).2)
  | .node op fs => (.gate op (table.compileAll fs).1, (table.compileAll fs).2)

/-- Compiles formulas from left to right. -/
def compileAll (table : SlotIndex) : List Formula → List Circuit × SlotIndex
  | [] => ([], table)
  | f :: fs =>
    let first := table.compile f
    let others := first.2.compileAll fs
    (first.1 :: others.1, others.2)

end

/-- The table after one use. -/
def use (table : SlotIndex) : SlotUse → SlotIndex
  | .allot name => (table.allot name).2
  | .compile f => (table.compile f).2

/-- The table after several uses. -/
def run (table : SlotIndex) (uses : List SlotUse) : SlotIndex :=
  uses.foldl use table

/-- The names are those of a table, and the index gives each name the place where it stands. -/
structure Matches (table : SlotIndex) (symbols : Symbols) : Prop where
  names : table.names = symbols.names
  slots : ∀ (name : String) (slot : Nat), table.slots[name]? = some slot ↔ table.names[slot]? = some name

variable {table : SlotIndex} {symbols : Symbols} {name : String} {f : Formula} {fs : List Formula}

theorem matches_empty : Matches {} .empty := by
  refine ⟨rfl, fun name slot => ?_⟩
  simp

/-- A name has a slot in the index just if it is in the table. -/
theorem Matches.slots_eq_some_iff (h : table.Matches symbols) {slot : Nat} :
    table.slots[name]? = some slot ↔ name ∈ symbols.names ∧ symbols.slotOf name = slot := by
  rw [h.slots, h.names, Symbols.getElem?_names_eq_some_iff]

theorem allot_of_some {slot : Nat} (h : table.slots[name]? = some slot) :
    table.allot name = (slot, table) := by
  rw [allot, h]

theorem allot_of_none (h : table.slots[name]? = none) :
    table.allot name = (table.names.size,
      { names := table.names.push name, slots := table.slots.insert name table.names.size }) := by
  rw [allot, h]

/-- One slot: the answer is that of the table without an index, and the index keeps up. -/
theorem Matches.allot (h : table.Matches symbols) (name : String) :
    (table.allot name).1 = (symbols.allot name).1 ∧
      (table.allot name).2.Matches (symbols.allot name).2 := by
  cases hslot : table.slots[name]? with
  | some slot =>
    obtain ⟨hmem, rfl⟩ := h.slots_eq_some_iff.1 hslot
    rw [allot_of_some hslot, Symbols.allot_of_mem hmem]
    exact ⟨rfl, h⟩
  | none =>
    have hnot : name ∉ symbols.names := fun hmem => by
      rw [h.slots_eq_some_iff.2 ⟨hmem, rfl⟩] at hslot
      cases hslot
    rw [allot_of_none hslot]
    refine ⟨by rw [h.names, Symbols.allot_of_not_mem hnot, Symbols.size], ?_, fun other slot => ?_⟩
    · rw [h.names, Symbols.allot, Symbols.names_insert_of_not_mem hnot]
    · rw [Std.HashMap.getElem?_insert, Array.getElem?_push]
      by_cases hother : name = other
      · subst hother
        have hold : table.names[slot]? ≠ some name := fun hold => by
          rw [← h.slots, hslot] at hold
          cases hold
        by_cases hnew : slot = table.names.size <;> simp [hnew, hold, eq_comm]
      · have hlast : table.slots[other]? ≠ some table.names.size := fun hlast => by
          rw [h.slots] at hlast
          simp at hlast
        by_cases hnew : slot = table.names.size <;> simp [hnew, hother, hlast, h.slots]

theorem Matches.compileAll (hcompile : ∀ f ∈ fs, ∀ (table : SlotIndex) (symbols : Symbols),
      table.Matches symbols → (table.compile f).1 = (symbols.compile f).1 ∧
        (table.compile f).2.Matches (symbols.compile f).2)
    (h : table.Matches symbols) :
    (table.compileAll fs).1 = (symbols.compileAll fs).1 ∧
      (table.compileAll fs).2.Matches (symbols.compileAll fs).2 := by
  induction fs generalizing table symbols with
  | nil => exact ⟨rfl, h⟩
  | cons f fs ih =>
    obtain ⟨hf, hfs⟩ := List.forall_mem_cons.1 hcompile
    obtain ⟨hcircuit, hbetween⟩ := hf table symbols h
    obtain ⟨hcircuits, hlast⟩ := ih hfs hbetween
    rw [SlotIndex.compileAll, Symbols.compileAll, hcircuit, hcircuits]
    exact ⟨rfl, hlast⟩

/-- A formula is compiled to the same circuit, operand by operand. -/
theorem Matches.compile (h : table.Matches symbols) (f : Formula) :
    (table.compile f).1 = (symbols.compile f).1 ∧
      (table.compile f).2.Matches (symbols.compile f).2 := by
  induction f using Formula.induct generalizing table symbols with
  | atom name =>
    obtain ⟨hslot, htable⟩ := h.allot name
    rw [SlotIndex.compile, Symbols.compile_atom, hslot]
    exact ⟨rfl, htable⟩
  | node op fs ih =>
    obtain ⟨hcircuits, htable⟩ := h.compileAll fun f hf table symbols hbetween => ih f hf hbetween
    rw [SlotIndex.compile, Symbols.compile_node, hcircuits]
    exact ⟨rfl, htable⟩

theorem Matches.use (h : table.Matches symbols) (u : SlotUse) :
    (table.use u).Matches (symbols.use u) := by
  cases u with
  | allot name => exact (h.allot name).2
  | compile f => exact (h.compile f).2

theorem matches_run (h : table.Matches symbols) (uses : List SlotUse) :
    (table.run uses).Matches (symbols.run uses) := by
  induction uses generalizing table symbols with
  | nil => exact h
  | cons u uses ih => exact ih (h.use u)

/-- The table of some names, each asked for its slot in turn. -/
def ofNames (names : Array String) : SlotIndex :=
  run {} (names.toList.map .allot)

end SlotIndex

/-! ## Runs -/

/-- The names that are given slots, if they have none, in this order. -/
def SlotUse.names : SlotUse → List String
  | allot name => [name]
  | compile f => f.atoms

namespace Symbols

/-- The table of some names, each asked for its slot in turn. -/
def ofNames (names : Array String) : Symbols :=
  empty.run (names.toList.map .allot)

theorem run_eq_foldl (symbols : Symbols) (uses : List SlotUse) :
    symbols.run uses = (uses.flatMap SlotUse.names).foldl insert symbols := by
  induction uses generalizing symbols with
  | nil => rfl
  | cons u uses ih =>
    rw [List.flatMap_cons, List.foldl_append, ← ih]
    cases u <;> rfl

/-- Names have slots in the order of their first use. -/
theorem toList_names_run (uses : List SlotUse) :
    (empty.run uses).names.toList = (uses.flatMap SlotUse.names).eraseDups := by
  rw [run_eq_foldl, toList_foldl_insert_empty]

theorem toList_names_foldl_extend (fs : List Formula) :
    (fs.foldl extend empty).names.toList = (fs.flatMap Formula.atoms).eraseDups := by
  rw [foldl_extend, toList_foldl_insert_empty]

theorem eraseDups_of_nodup {names : List String} (h : names.Nodup) : names.eraseDups = names := by
  induction names with
  | nil => rfl
  | cons name names ih =>
    rw [List.nodup_cons] at h
    have hothers : names.filter (fun other => !other == name) = names := by
      refine List.filter_eq_self.2 fun other hother => ?_
      simpa using fun he : other = name => h.1 (he ▸ hother)
    rw [List.eraseDups_cons, hothers, ih h.2]

/-- The table of the names of a set is the set. -/
theorem ofNames_names (symbols : Symbols) : ofNames symbols.names = symbols := by
  have hnames : (ofNames symbols.names).names = symbols.names := by
    rw [← Array.toList_inj, ofNames, toList_names_run, List.flatMap_map]
    simp only [SlotUse.names, List.flatMap_singleton', eraseDups_of_nodup symbols.distinct]
  generalize ofNames symbols.names = table at hnames
  obtain ⟨names, distinct⟩ := table
  obtain ⟨names', distinct'⟩ := symbols
  obtain rfl : names = names' := hnames
  rfl

/-- **What is stored twice stays in agreement, and tables agree with sets**: after any formulas were added
to a set, its names are their symbols in order of first appearance, the index holds the same names, and
a formula whose symbols are all there changes neither. After any uses of a table, its names are those that
were used in order of first use, names and slots are mutually inverse in the table and in its index, a
name that is new gets the next slot, the slot that was given stays, and the table gives the same slots and
circuits as its index. The table of the names of a set has them in the same slots, and gives no slot to
compile a formula whose symbols are all in the set. -/
theorem indexed_alike (fs : List Formula) (uses : List SlotUse) :
    let set := fs.foldl extend empty
    let setIndex := fs.foldl NameIndex.extend {}
    let table := empty.run uses
    let slotIndex := SlotIndex.run {} uses
    (set.names.toList = (fs.flatMap Formula.atoms).eraseDups ∧ setIndex.Matches set ∧
      ∀ f, (∀ name ∈ f.atoms, name ∈ set.names) →
        set.extend f = set ∧ setIndex.extend f = setIndex) ∧
    (table.names.toList = (uses.flatMap SlotUse.names).eraseDups ∧ slotIndex.Matches table ∧
      (∀ name slot, table.names[slot]? = some name ↔
        name ∈ table.names ∧ table.slotOf name = slot) ∧
      (∀ name, name ∉ table.names → (table.allot name).1 = table.size) ∧
      (∀ name later, ((table.allot name).2.run later).slotOf name = (table.allot name).1) ∧
      (∀ name, (slotIndex.allot name).1 = (table.allot name).1) ∧
      ∀ f, (slotIndex.compile f).1 = (table.compile f).1) ∧
    ((∀ name slot, set.names[slot]? = some name →
        (ofNames set.names).slotOf name = slot) ∧
      (SlotIndex.ofNames setIndex.names).Matches (ofNames set.names) ∧
      ∀ f, (∀ name ∈ f.atoms, name ∈ set.names) →
        ((ofNames set.names).compile f).2 = ofNames set.names ∧
          ((SlotIndex.ofNames setIndex.names).compile f).2.names = setIndex.names) := by
  intro set setIndex table slotIndex
  have hset : setIndex.Matches set := NameIndex.matches_foldl_extend NameIndex.matches_empty fs
  have htable : slotIndex.Matches table := SlotIndex.matches_run SlotIndex.matches_empty uses
  have hmade : (SlotIndex.ofNames setIndex.names).Matches (ofNames set.names) := by
    rw [hset.names]
    exact SlotIndex.matches_run SlotIndex.matches_empty _
  refine ⟨⟨toList_names_foldl_extend fs, hset, ?covered⟩,
    ⟨toList_names_run uses, htable, fun name slot => getElem?_names_eq_some_iff,
      fun name => allot_of_not_mem, ?kept, fun name => (htable.allot name).1,
      fun f => (htable.compile f).1⟩, ?placed, hmade, ?compiled⟩
  case covered =>
    intro f hf
    refine ⟨foldl_insert_of_mem hf, ?_⟩
    rw [NameIndex.extend_eq_foldl]
    refine NameIndex.foldl_insert_of_seen fun name hname => ?_
    rw [hset.seen, hset.names]
    exact hf name hname
  case kept =>
    intro name later
    have hmem : name ∈ (table.allot name).2.names := mem_insert.2 (.inr rfl)
    exact slotOf_of_extends (extends_run _ later) hmem
  case placed =>
    intro name slot hslot
    rw [ofNames_names]
    exact (getElem?_names_eq_some_iff.1 hslot).2
  case compiled =>
    intro f hf
    have hmade' := (hmade.compile f).2.names
    rw [ofNames_names, compile_of_mem hf] at hmade' ⊢
    exact ⟨rfl, hmade'.trans hset.names.symm⟩

/-- Formulas with the symbols q and p, each more than once. -/
def overlapping : List Formula :=
  [.node .and [.node .or [.atom "q", .atom "p"], .atom "p"], .node .not [.atom "q"]]

/-- Two ways of using a table, with names that were used before. -/
def mixedUses : List SlotUse :=
  [.allot "b", .compile (.node .iff [.atom "a", .atom "b"]), .allot "a", .allot "c"]

theorem indexed_alike_overlapping :
    (overlapping.foldl extend empty).names.toList = ["q", "p"] ∧
      (empty.run mixedUses).names.toList = ["b", "a", "c"] ∧
      ((empty.run mixedUses).allot "d").1 = (empty.run mixedUses).size ∧
      (overlapping.foldl NameIndex.extend {}).extend (.node .implies [.atom "p", .atom "q"]) =
        overlapping.foldl NameIndex.extend {} ∧
      ((ofNames (overlapping.foldl extend empty).names).compile (.atom "p")).2 =
        ofNames (overlapping.foldl extend empty).names := by
  obtain ⟨⟨hset, -, hcovered⟩, ⟨htable, -, -, hnew, -, -, -⟩, -, -, hcompiled⟩ :=
    indexed_alike overlapping mixedUses
  have hnames : (overlapping.foldl extend empty).names.toList = ["q", "p"] := by
    rw [hset]
    cbv
  have hslots : (empty.run mixedUses).names.toList = ["b", "a", "c"] := by
    rw [htable]
    cbv
  refine ⟨hnames, hslots, hnew "d" ?_, (hcovered _ fun name hname => ?_).2,
    (hcompiled _ fun name hname => ?_).1⟩
  · rw [← Array.mem_toList_iff, hslots]
    decide
  · rw [← Array.mem_toList_iff, hnames]
    simpa [Formula.atoms, or_comm] using hname
  · obtain rfl : name = "p" := by simpa [Formula.atoms] using hname
    rw [← Array.mem_toList_iff, hnames]
    decide

end Symbols

end Consequence
