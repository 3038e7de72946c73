import Mathlib
import Consequence.Proofs.Loading
import Consequence.Proofs.Sharpening

/-!
# Runs of a base

A base grows by sources that are added and by formulas that are pushed. Adding a source either adds all
of its clauses and stores its text, or changes nothing.

* `KnowledgeBase.Grown`: what events make of a base; `KnowledgeBase.Grown.trans`: first some events, then
  others.
* `KnowledgeBase.grown_change`: what one change does.
* `KnowledgeBase.grown_run`: so it is for a run.
* `KnowledgeBase.run_new`: clauses, count and texts of a base after any run.
-/

set_option autoImplicit false

namespace Consequence

/-- What is asked of a base. -/
inductive Change where
  | add (source : Source)
  | push (f : Formula)

/-- What comes back: the number of clauses that were added, or why there are none. -/
inductive Answer where
  | added (count : Nat)
  | refused (e : Error)
  | pushed

/-- A change and what came back. -/
abbrev Event := Change × Answer

/-! ## What an event leaves behind -/

/-- The clauses of the rows of a source that can be read, in order. -/
def Source.rowClauses (source : Source) (limits : Limits) : List Clause :=
  source.clauseRows.filterMap fun row => (source.clause limits row).outcome.1.toOption

/-- The number that was returned. -/
def Answer.count : Answer → Nat
  | added count => count
  | _ => 0

/-- The change pushes a formula. -/
def Change.isPush : Change → Bool
  | add _ => false
  | push _ => true

namespace Event

/-- The clauses that the event adds: those of the rows of a source that was added, or the formula. -/
def clauses (limits : Limits) : Event → List Clause
  | (.add source, .added _) => source.rowClauses limits
  | (.add _, _) => []
  | (.push f, _) => [.inMemory f]

/-- The text that the event stores under an id. -/
def text? (id : String) : Event → Option String
  | (.add source, .added _) => if source.id = id then some source.text else none
  | _ => none

/-- The answer is the right one: a source is added just if it is not too long and each of its rows can be
read, and is refused with the error of loading it. -/
def Answered (limits : Limits) : Event → Prop
  | (.add source, .added count) =>
    source.text.utf8ByteSize ≤ limits.sourceBytes ∧
      (∀ row ∈ source.clauseRows, ∃ c, (source.clause limits row).outcome.1 = .ok c) ∧
      count = source.clauseRows.length
  | (.add source, .refused e) => (source.clauses limits).outcome.1 = .error e
  | (.push _, .pushed) => True
  | _ => False

end Event

theorem Source.mem_rowClauses {source : Source} {limits : Limits} {c : Clause} :
    c ∈ source.rowClauses limits ↔
      ∃ row ∈ source.clauseRows, (source.clause limits row).outcome.1 = .ok c := by
  have hread (r : Except Error Clause) : r.toOption = some c ↔ r = .ok c := by
    cases r <;> simp [Except.toOption]
  simp [rowClauses, hread]

theorem Source.rowClauses_eq {source : Source} {limits : Limits} {cs : List Clause}
    (h : (source.clauses limits).outcome.1 = .ok cs) : source.rowClauses limits = cs := by
  have hrows := (clauses_eq_ok_iff.1 h).2
  clear h
  unfold rowClauses
  generalize source.clauseRows = rows at hrows
  induction hrows with
  | nil => rfl
  | cons hfirst _ ih =>
    rw [List.filterMap_cons, hfirst, ih]
    rfl

namespace KnowledgeBase

/-! ## Runs -/

/-- One change: what comes back, and the base that it leaves. -/
def change (kb : KnowledgeBase) : Change → Answer × KnowledgeBase
  | .add source =>
    let updated := (addSource source).outcome kb
    match updated.result with
    | .ok count => (.added count, updated.base)
    | .error e => (.refused e, updated.base)
  | .push f => (.pushed, kb.push f)

/-- The base after changes, one after the other. -/
def run (kb : KnowledgeBase) (changes : List Change) : KnowledgeBase :=
  changes.foldl (fun kb c => (kb.change c).2) kb

/-- What happens in a run. -/
def history (kb : KnowledgeBase) : List Change → List Event
  | [] => []
  | c :: cs => (c, (kb.change c).1) :: (kb.change c).2.history cs

/-- What events make of a base. -/
structure Grown (kb : KnowledgeBase) (events : List Event) (after : KnowledgeBase) : Prop where
  limits : after.limits = kb.limits
  answered : ∀ event ∈ events, event.Answered kb.limits
  clauses : after.clauses = kb.clauses ++ events.flatMap (Event.clauses kb.limits)
  length : after.clauses.length =
    kb.clauses.length + (events.map (·.2.count)).sum + events.countP (·.1.isPush)
  text : ∀ id, after.sourceText id =
    ((events.filterMap (Event.text? id)).getLast?).getD (kb.sourceText id)

variable {kb between after : KnowledgeBase} {events others : List Event}

theorem grown_nil (kb : KnowledgeBase) : kb.Grown [] kb := by
  refine ⟨rfl, ?_, ?_, ?_, ?_⟩ <;> simp

theorem Grown.trans (h : kb.Grown events between) (h' : between.Grown others after) :
    kb.Grown (events ++ others) after where
  limits := h'.limits.trans h.limits
  answered event hevent := by
    rcases List.mem_append.1 hevent with hevent | hevent
    · exact h.answered event hevent
    · rw [← h.limits]
      exact h'.answered event hevent
  clauses := by
    rw [h'.clauses, h.clauses, h.limits, List.append_assoc, List.flatMap_append]
  length := by
    rw [h'.length, h.length, List.map_append, List.sum_append, List.countP_append]
    omega
  text id := by
    rw [h'.text, h.text, List.filterMap_append, List.getLast?_append]
    cases (others.filterMap (Event.text? id)).getLast? <;> rfl

/-! ## One change -/

theorem sourceText_insert (texts : Std.TreeMap String String) (source : Source) (id : String) :
    (texts.insert source.id source.text).getD id "" =
      if source.id = id then source.text else texts.getD id "" := by
  rw [Std.TreeMap.getD_insert]
  simp only [Std.LawfulEqCmp.compare_eq_iff_eq]

theorem change_added {source : Source} {cs : List Clause}
    (h : (source.clauses kb.limits).outcome.1 = .ok cs) :
    kb.change (.add source) = (.added cs.length, kb.extend source cs) := by
  simp only [change, result_addSource, base_addSource, h, Except.map]

/-- A source that is refused leaves the base as it was. -/
theorem change_refused {source : Source} {e : Error}
    (h : (source.clauses kb.limits).outcome.1 = .error e) :
    kb.change (.add source) = (.refused e, kb) := by
  simp only [change, result_addSource, base_addSource, h, Except.map]

theorem grown_change (kb : KnowledgeBase) (c : Change) :
    kb.Grown [(c, (kb.change c).1)] (kb.change c).2 := by
  cases c with
  | push f =>
    refine ⟨rfl, List.forall_mem_singleton.2 trivial, ?_, ?_, fun id => ?_⟩
    · simp [Event.clauses, change, push]
    · simp [Answer.count, Change.isPush, change, push]
    · simp [Event.text?, sourceText, change, push]
  | add source =>
    cases h : (source.clauses kb.limits).outcome.1 with
    | error e =>
      rw [change_refused h]
      refine ⟨rfl, List.forall_mem_singleton.2 h, ?_, ?_, fun id => ?_⟩
      · simp [Event.clauses]
      · simp [Answer.count, Change.isPush]
      · simp [Event.text?]
    | ok cs =>
      obtain ⟨hsize, hrows⟩ := Source.clauses_eq_ok_iff.1 h
      rw [change_added h]
      refine ⟨rfl, ?_, ?_, ?_, fun id => ?_⟩
      · refine List.forall_mem_singleton.2 ⟨hsize, fun row hrow => ?_, hrows.length_eq.symm⟩
        obtain ⟨i, hi, rfl⟩ := List.mem_iff_getElem.1 hrow
        exact ⟨_, hrows.get hi (by rw [← hrows.length_eq]; exact hi)⟩
      · simp [Event.clauses, Source.rowClauses_eq h, extend]
      · simp [Answer.count, Change.isPush, extend]
      · simp only [sourceText, extend, sourceText_insert, List.filterMap_cons, List.filterMap_nil, Event.text?]
        split <;> rfl

/-! ## Whole runs -/

theorem grown_run (kb : KnowledgeBase) (changes : List Change) :
    kb.Grown (kb.history changes) (kb.run changes) := by
  induction changes generalizing kb with
  | nil => exact kb.grown_nil
  | cons c changes ih => exact (kb.grown_change c).trans (ih (kb.change c).2)

/-- Every change is answered. -/
theorem map_history (kb : KnowledgeBase) (changes : List Change) :
    (kb.history changes).map (·.1) = changes := by
  induction changes generalizing kb with
  | nil => rfl
  | cons c changes ih => rw [history, List.map_cons, ih]

/-- **Loading is all or nothing over whole runs**: after any changes of a new base its clauses are those
that the changes contributed, in order, and none from a source that was refused; there are as many as
the answers count and formulas were pushed; and the text under an id is that of the last source that was
added under it. -/
theorem run_new (limits : Limits) (changes : List Change) :
    let new : KnowledgeBase := { limits }
    let events := new.history changes
    events.map (·.1) = changes ∧
      (∀ event ∈ events, event.Answered limits) ∧
      (new.run changes).clauses = events.flatMap (Event.clauses limits) ∧
      (new.run changes).clauses.length =
        (events.map (·.2.count)).sum + changes.countP Change.isPush ∧
      ∀ id, (new.run changes).sourceText id = ((events.filterMap (Event.text? id)).getLast?).getD "" := by
  intro new events
  have hgrown := new.grown_run changes
  have hchanges := new.map_history changes
  refine ⟨hchanges, hgrown.answered, hgrown.clauses, ?_, fun id => hgrown.text id⟩
  have hpushed := List.countP_map (p := Change.isPush) (f := Prod.fst) (l := events)
  rw [hchanges] at hpushed
  have hlength := hgrown.length
  rw [hpushed, hlength]
  exact congrArg (· + _) (Nat.zero_add _)

end KnowledgeBase

end Consequence
