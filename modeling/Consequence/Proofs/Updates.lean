import Consequence.KnowledgeBase
import Consequence.Proofs.Reporting
import Consequence.Proofs.Sequencing

/-!
# Adding a source to a base

A source is read, then its text is stored and its clauses are added. Both changes come behind the reading,
so where that fails the base behind the failure is the one in front of it.

* `KnowledgeBase.addSource_of_ok`, `KnowledgeBase.addSource_of_error`: a source that can be read, and one that
  cannot.
* `KnowledgeBase.outcome_addSource`: the result, the warnings and the base that are left.
-/

set_option autoImplicit false

namespace Consequence

namespace Update

variable {α : Type}

theorem base_eq (state : KnowledgeBase × Array Warning) : base state = .ok state.1 state := rfl

/-- A computation that does not touch the base leaves it as it was, also where it fails. -/
theorem ofReporting_eq (r : Reporting α) (kb : KnowledgeBase) (before : Array Warning) :
    ofReporting r (kb, before) = match r before with
      | .ok a given => .ok a (kb, given)
      | .error e given => .error e (kb, given) := rfl

end Update

namespace KnowledgeBase

variable {kb larger : KnowledgeBase} {source : Source} {before given : Array Warning}

/-- The base with the text and the clauses of a source that was read. -/
def extend (kb : KnowledgeBase) (source : Source) (read : List Clause) : KnowledgeBase :=
  { kb with
    clauses := kb.clauses ++ read
    texts := kb.texts.insert source.id source.text }

theorem addSource_of_ok {read : List Clause}
    (h : source.clauses kb.limits before = .ok read given) :
    addSource source (kb, before) = .ok read.length (kb.extend source read, given) := by
  have hread : Update.ofReporting (source.clauses kb.limits) (kb, before) = .ok read (kb, given) := by
    rw [Update.ofReporting_eq, h]
  exact (bind_ok (Update.base_eq _)).trans ((bind_ok hread).trans rfl)

/-- A source that cannot be read leaves the base as it was. -/
theorem addSource_of_error {e : Error} (h : source.clauses kb.limits before = .error e given) :
    addSource source (kb, before) = .error e (kb, given) := by
  have hread : Update.ofReporting (source.clauses kb.limits) (kb, before) = .error e (kb, given) := by
    rw [Update.ofReporting_eq, h]
  exact (bind_ok (Update.base_eq _)).trans (bind_error hread)

theorem outcome_addSource (kb : KnowledgeBase) (source : Source) :
    (addSource source).outcome kb = match (source.clauses kb.limits).outcome with
      | (.ok read, given) => ⟨.ok read.length, given, kb.extend source read⟩
      | (.error e, given) => ⟨.error e, given, kb⟩ := by
  unfold Reporting.outcome Update.outcome
  cases h : source.clauses kb.limits #[] with
  | ok read given => rw [addSource_of_ok h]
  | error e given => rw [addSource_of_error h]

theorem result_addSource (kb : KnowledgeBase) (source : Source) :
    ((addSource source).outcome kb).result =
      (source.clauses kb.limits).outcome.1.map List.length := by
  rw [outcome_addSource]
  rcases (source.clauses kb.limits).outcome with ⟨read | e, given⟩ <;> rfl

/-- A source adds its clauses behind the others, or nothing. -/
theorem base_addSource (kb : KnowledgeBase) (source : Source) :
    ((addSource source).outcome kb).base = match (source.clauses kb.limits).outcome.1 with
      | .ok read => kb.extend source read
      | .error _ => kb := by
  rw [outcome_addSource]
  rcases (source.clauses kb.limits).outcome with ⟨read | e, given⟩ <;> rfl

/-! ## Callers that stop at a failure -/

theorem outcome_add (kb : KnowledgeBase) (source : Source) :
    (kb.add source).outcome =
      ((source.clauses kb.limits).outcome.1.map fun read => (read.length, kb.extend source read),
        (source.clauses kb.limits).outcome.2) := by
  unfold Reporting.outcome add
  cases h : source.clauses kb.limits #[] with
  | ok read given =>
    rw [addSource_of_ok h]
    rfl
  | error e given =>
    rw [addSource_of_error h]
    rfl

theorem add_eq_ok_iff {count : Nat} :
    (kb.add source).outcome.1 = .ok (count, larger) ↔
      ∃ read, (source.clauses kb.limits).outcome.1 = .ok read ∧ read.length = count ∧
        kb.extend source read = larger := by
  rw [outcome_add]
  cases (source.clauses kb.limits).outcome.1 <;> simp [Except.map]

theorem add_eq_error_iff {e : Error} :
    (kb.add source).outcome.1 = .error e ↔ (source.clauses kb.limits).outcome.1 = .error e := by
  rw [outcome_add]
  cases (source.clauses kb.limits).outcome.1 <;> simp [Except.map]

end KnowledgeBase

end Consequence
