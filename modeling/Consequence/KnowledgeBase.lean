import Consequence.Clause
import Consequence.Seed
import Consequence.Symbols

/-!
# Knowledge bases

A knowledge base collects the clauses of several sources, read as one conjunction, in the order in
which they were added. Sources are added in place: an `Update` works on a base, and leaves one behind
whether it succeeds or fails. A base in which every clause is well formed is a `ValidBase`; statements
are checked against such bases.
-/

set_option autoImplicit false

namespace Consequence

/-- The error that rejects a clause with a defect, for a clause from a source with the given text. -/
def Clause.rejection? (clause : Clause) (text : String) : Option Error :=
  clause.formula.defect?.map fun violation =>
    .located ⟨.rejectedClause violation clause.formula, clause.span, ⟨clause.sourceId, text⟩⟩

/-- A clause is not rejected just if its formula is well formed. -/
theorem Clause.rejection?_eq_none_iff (clause : Clause) (text : String) :
    clause.rejection? text = none ↔ clause.formula.WellFormed := by
  rw [Clause.rejection?, Option.map_eq_none_iff, Formula.defect?_eq_none_iff]

/-- Clauses in the order in which they were added, and the latest text of every source. -/
structure KnowledgeBase where
  limits : Limits := {}
  clauses : List Clause := []
  texts : Std.TreeMap String String := ∅

/-- Works on a base, and may give warnings and fail. -/
abbrev Update := EStateM Error (KnowledgeBase × Array Warning)

/-- What an update leaves behind: its result, the warnings that were given, and the base. -/
structure Updated (α : Type) where
  result : Except Error α
  warnings : Array Warning
  base : KnowledgeBase

namespace Update

variable {α : Type}

/-- Runs a computation that does not touch the base. -/
def ofReporting (x : Reporting α) : Update α := fun state =>
  match x state.2 with
  | .ok a warnings => .ok a (state.1, warnings)
  | .error e warnings => .error e (state.1, warnings)

instance : MonadLift Reporting Update :=
  ⟨ofReporting⟩

/-- The base. -/
def base : Update KnowledgeBase :=
  return (← get).1

/-- Changes the base. -/
def change (f : KnowledgeBase → KnowledgeBase) : Update Unit :=
  modify fun state => (f state.1, state.2)

/-- Runs from a base and no warnings. -/
def outcome (x : Update α) (kb : KnowledgeBase) : Updated α :=
  match x (kb, #[]) with
  | .ok a state => ⟨.ok a, state.2, state.1⟩
  | .error e state => ⟨.error e, state.2, state.1⟩

end Update

namespace KnowledgeBase

/-- Reads a source, stores its text, adds its clauses and gives their number. The source is read before
anything is changed. -/
def addSource (source : Source) : Update Nat := do
  let read ← source.clauses (← Update.base).limits
  Update.change fun kb => { kb with texts := kb.texts.insert source.id source.text }
  Update.change fun kb => { kb with clauses := kb.clauses ++ read }
  return read.length

/-- Adds a source for a caller that stops where this fails. Gives the number of clauses and the larger
base. -/
def add (kb : KnowledgeBase) (source : Source) : Reporting (Nat × KnowledgeBase) := fun warnings =>
  match addSource source (kb, warnings) with
  | .ok count state => .ok (count, state.1) state.2
  | .error e state => .error e state.2

/-- Adds a formula that has no source. -/
def push (kb : KnowledgeBase) (f : Formula) : KnowledgeBase :=
  { kb with clauses := kb.clauses ++ [.inMemory f] }

/-- The latest text that was added under a source id, empty if there is none. -/
def sourceText (kb : KnowledgeBase) (id : String) : String :=
  kb.texts.getD id ""

/-- The conjunction of all clauses. -/
def conjunction (kb : KnowledgeBase) : Formula :=
  .node .and (kb.clauses.map (·.formula))

/-- The error for the first clause with a defect. -/
def rejection? (kb : KnowledgeBase) : Option Error :=
  kb.clauses.findSome? fun clause => clause.rejection? (kb.sourceText clause.sourceId)

/-- No clause is rejected just if all are well formed. -/
theorem rejection?_eq_none_iff (kb : KnowledgeBase) :
    kb.rejection? = none ↔ ∀ clause ∈ kb.clauses, clause.formula.WellFormed := by
  simp [rejection?, Clause.rejection?_eq_none_iff]

end KnowledgeBase

/-- A knowledge base in which every clause is well formed. -/
structure ValidBase extends KnowledgeBase where
  wellFormed : ∀ clause ∈ clauses, clause.formula.WellFormed

/-- Accepts a base in which every clause is well formed, and else reports the first one that is
not. -/
def KnowledgeBase.validate (kb : KnowledgeBase) : Except Error ValidBase :=
  match h : kb.rejection? with
  | some e => .error e
  | none => .ok { kb with wellFormed := kb.rejection?_eq_none_iff.1 h }

namespace ValidBase

/-- The formulas of the clauses. -/
def formulas (base : ValidBase) : List Formula :=
  base.clauses.map (·.formula)

/-- The symbols that the clauses pin. -/
def seed (base : ValidBase) : Seed :=
  .ofFormulas base.formulas

/-- The distinct symbols of all clauses. -/
def symbols (base : ValidBase) : Symbols :=
  base.formulas.foldl Symbols.extend .empty

end ValidBase

end Consequence
