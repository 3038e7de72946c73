import Mathlib
import Consequence.Proofs.FreeSymbols

/-!
# Compiling against a growing table

Formulas are compiled one after the other against one table, and each of them may add symbols to it.
A table only grows at its end, so a slot stays what it was and a circuit keeps its meaning, however
many names are given slots later.

* `Symbols.Extends`: the later table has the names of the earlier one in front;
  `Symbols.extends_run` says that this is all that uses of a table do to it.
* `Symbols.slotOf_of_extends`, `Symbols.ofFormula_of_extends`: so slots and circuits stay.
* `Symbols.compile_node`: a form is compiled operand by operand, each from the table that the one before
  it left.
* `Symbols.eval_compile_run`: what a circuit computes over the rows of any later table.
-/

set_option autoImplicit false

namespace Consequence

/-! ## Later tables -/

/-- A use of a table, which may give new slots: the slot of a name or the circuit of a formula is asked
for. -/
inductive SlotUse where
  | allot (name : String)
  | compile (f : Formula)

namespace Symbols

variable {symbols later : Symbols} {f : Formula} {fs : List Formula} {name : String}

/-- The table after one use. -/
def use (symbols : Symbols) : SlotUse → Symbols
  | .allot name => (symbols.allot name).2
  | .compile f => (symbols.compile f).2

/-- The table after several uses. -/
def run (symbols : Symbols) (uses : List SlotUse) : Symbols :=
  uses.foldl use symbols

/-- The later table has the names of the earlier one, in the same order, in front of all others. -/
def Extends (later symbols : Symbols) : Prop :=
  symbols.names.toList <+: later.names.toList

theorem extends_foldl_insert (others : List String) (symbols : Symbols) :
    (others.foldl insert symbols).Extends symbols :=
  ⟨_, (toList_foldl_insert others symbols).symm⟩

theorem extends_use (symbols : Symbols) (u : SlotUse) : (symbols.use u).Extends symbols := by
  cases u with
  | allot name => exact extends_foldl_insert [name] symbols
  | compile f => exact extends_foldl_insert f.atoms symbols

theorem extends_run (symbols : Symbols) (uses : List SlotUse) :
    (symbols.run uses).Extends symbols := by
  induction uses generalizing symbols with
  | nil => exact List.prefix_refl _
  | cons u uses ih => exact (symbols.extends_use u).trans (ih (symbols.use u))

theorem Extends.mem (h : later.Extends symbols) (hname : name ∈ symbols.names) :
    name ∈ later.names := by
  rw [← Array.mem_toList_iff] at hname ⊢
  exact h.subset hname

/-! ## What stays -/

/-- A name keeps its slot. -/
theorem slotOf_of_extends (h : later.Extends symbols) (hname : name ∈ symbols.names) :
    later.slotOf name = symbols.slotOf name := by
  obtain ⟨others, hnames⟩ := h
  rw [slotOf_eq_idxOf, slotOf_eq_idxOf, ← hnames,
    List.idxOf_append_of_mem (Array.mem_toList_iff.2 hname)]

/-- A formula whose symbols all have slots keeps its circuit. -/
theorem ofFormula_of_extends (h : later.Extends symbols)
    (hatoms : ∀ name ∈ f.atoms, name ∈ symbols.names) :
    Circuit.ofFormula later f = Circuit.ofFormula symbols f := by
  induction f using Formula.induct with
  | atom name =>
    rw [Circuit.ofFormula, Circuit.ofFormula, slotOf_of_extends h (hatoms name (by simp [Formula.atoms]))]
  | node op fs ih =>
    have hfs : fs.map (Circuit.ofFormula later) = fs.map (Circuit.ofFormula symbols) :=
      List.map_congr_left fun g hg => ih g hg fun name hname =>
        hatoms name (Formula.mem_atoms_node.2 ⟨g, hg, hname⟩)
    rw [Circuit.ofFormula, Circuit.ofFormula, hfs]

/-- After compilation all symbols of the formula have slots. -/
theorem mem_compile (hname : name ∈ f.atoms) : name ∈ (symbols.compile f).2.names :=
  mem_extend.2 (.inr hname)

/-! ## Compiling one after the other -/

theorem compileAll_eq (fs : List Formula) (symbols : Symbols) :
    symbols.compileAll fs =
      (fs.map (.ofFormula (fs.foldl extend symbols)), fs.foldl extend symbols) := by
  induction fs generalizing symbols with
  | nil => rfl
  | cons f fs ih =>
    -- the operands behind the first one only add names behind its own
    have hfirst : Circuit.ofFormula (fs.foldl extend (symbols.extend f)) f =
        Circuit.ofFormula (symbols.extend f) f := by
      rw [foldl_extend]
      exact ofFormula_of_extends (extends_foldl_insert _ _) fun name hname =>
        mem_extend.2 (.inr hname)
    simp only [compileAll, compile, ih, List.map_cons, List.foldl_cons, hfirst]

theorem compile_atom (symbols : Symbols) (name : String) :
    symbols.compile (.atom name) = (.input (symbols.allot name).1, (symbols.allot name).2) := by
  rw [compile, Circuit.ofFormula, extend, Formula.atoms_atom]
  rfl

/-- A form is compiled operand by operand, from left to right, each from the table that the one before
it left. -/
theorem compile_node (symbols : Symbols) (op : Connective) (fs : List Formula) :
    symbols.compile (.node op fs) =
      (.gate op (symbols.compileAll fs).1, (symbols.compileAll fs).2) := by
  rw [compileAll_eq, compile, extend_node, Circuit.ofFormula]

end Symbols

/-! ## What a circuit reads -/

/-- The slots that a circuit reads. -/
def Circuit.slots : Circuit → List Nat
  | input slot => [slot]
  | gate _ inputs => inputs.flatMap fun c => c.slots

theorem Circuit.slots_ofFormula (symbols : Symbols) (f : Formula) :
    (ofFormula symbols f).slots = f.atoms.map symbols.slotOf := by
  induction f using Formula.induct with
  | atom name => rw [ofFormula, slots, Formula.atoms_atom, List.map_singleton]
  | node op fs ih =>
    rw [ofFormula, slots, Formula.atoms_node, List.map_flatMap, List.flatMap_map]
    exact List.flatMap_congr ih

/-- Without operands, `and`, `if` and `iff` hold and the other connectives do not. -/
theorem Connective.reading_nil (op : Connective) :
    op.reading [] = decide (op = .and ∨ op = .implies ∨ op = .iff) := by
  cases op <;> rfl

namespace Symbols

/-- **A circuit computes the truth value of its formula over the rows of every later table**: whatever
operand counts and names the formula has, and however the table came about and goes on to be used, a row
with a value for every slot has all values that the circuit reads, and the output is the truth value of
the formula where each name has the value in its slot. Compiled again the formula has the same circuit,
and no slot is added. A form is compiled operand by operand against the growing table; without operands
it is true for `and`, `if` and `iff` only. -/
theorem eval_compile_run (before after : List SlotUse) (f : Formula) (row : Array Bool)
    (hrow : (((empty.run before).compile f).2.run after).size ≤ row.size) :
    let compiled := (empty.run before).compile f
    let later := compiled.2.run after
    (∀ slot ∈ compiled.1.slots, slot < row.size) ∧
      compiled.1.eval row = f.truth (later.valuation row) ∧
      later.compile f = (compiled.1, later) ∧
      (∀ (symbols : Symbols) (op : Connective) (fs : List Formula), symbols.compile (.node op fs) =
        (.gate op (symbols.compileAll fs).1, (symbols.compileAll fs).2)) ∧
      ∀ op : Connective, op.reading [] = decide (op = .and ∨ op = .implies ∨ op = .iff) := by
  intro compiled later
  have hlater : later.Extends compiled.2 := extends_run _ _
  have hatoms : ∀ name ∈ f.atoms, name ∈ compiled.2.names := fun name hname => mem_compile hname
  have hcircuit : Circuit.ofFormula later f = compiled.1 := ofFormula_of_extends hlater hatoms
  refine ⟨?reads, ?value, ?again, compile_node, Connective.reading_nil⟩
  case reads =>
    rw [← hcircuit, Circuit.slots_ofFormula]
    intro slot hslot
    obtain ⟨name, hname, rfl⟩ := List.mem_map.1 hslot
    exact (slotOf_lt (hlater.mem (hatoms name hname))).trans_le hrow
  case value => rw [← hcircuit, Circuit.eval_ofFormula]
  case again => rw [compile_of_mem fun name hname => hlater.mem (hatoms name hname), hcircuit]

/-- The implication from `p` by `q` to `r`. -/
def chained : Formula := .node .implies [.atom "p", .atom "q", .atom "r"]

/-- The circuit of the implication and its table, where `q` had a slot already. -/
def chainedCircuit : Circuit × Symbols := (empty.run [.allot "q"]).compile chained

/-- The table after `s` got a slot too. -/
def chainedLater : Symbols := chainedCircuit.2.run [.compile (.node .not [.atom "s", .atom "p"]), .allot "r"]

/-- In a row with one value more than there are slots, `q` and `p` hold and `r` does not. -/
theorem eval_compile_run_chained :
    chainedLater.size = 4 ∧ chainedCircuit.1.slots = [1, 0, 2] ∧
      (∀ slot ∈ chainedCircuit.1.slots, slot < 5) ∧
      chainedCircuit.1.eval #[true, true, false, true, true] = false ∧
      chained.truth (chainedLater.valuation #[true, true, false, true, true]) = false := by
  have hsize : chainedLater.size = 4 := by cbv
  have hslots : chainedCircuit.1.slots = [1, 0, 2] := by cbv
  have hvalue : chainedCircuit.1.eval #[true, true, false, true, true] = false := by cbv
  have hrow : chainedLater.size ≤ (#[true, true, false, true, true] : Array Bool).size := by
    rw [hsize]
    decide
  obtain ⟨hreads, htruth, -⟩ := eval_compile_run [.allot "q"]
    [.compile (.node .not [.atom "s", .atom "p"]), .allot "r"] chained _ hrow
  exact ⟨hsize, hslots, hreads, hvalue, htruth.symm.trans hvalue⟩

end Symbols

end Consequence
