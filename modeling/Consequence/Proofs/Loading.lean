import Mathlib.Data.List.Forall2
import Consequence.Proofs.Reporting

/-!
# What loading a source gives

* `Reporting.mapM_eq_ok_iff`, `Reporting.mapM_eq_error_iff`: a computation over a list succeeds just if
  it does for every element, and else fails like the first element for which it fails.
* `Source.clauses_eq_ok_iff`: a source gives one clause for each row that is not skipped, in order.
* `Source.clauses_eq_error_iff`: a source is refused for its size, or for its first row that cannot be
  read.
-/

set_option autoImplicit false

namespace Consequence

namespace Reporting

variable {α β : Type} {f : α → Reporting β}

variable {x : Reporting α} {e : Error}

/-- A sequence of two steps fails where the first one does, or behind it where the second one does. -/
theorem bind_eq_error_iff (hf : ∀ a, (f a).Appends) :
    (x >>= f).outcome.1 = .error e ↔
      x.outcome.1 = .error e ∨ ∃ a, x.outcome.1 = .ok a ∧ (f a).outcome.1 = .error e := by
  rw [outcome_bind hf]
  rcases x.outcome with ⟨a | a, given⟩ <;> simp [chain]

theorem mapM_cons_eq_ok_iff (hf : ∀ a, (f a).Appends) {a : α} {as : List α} {bs : List β} :
    ((a :: as).mapM f).outcome.1 = .ok bs ↔
      ∃ b others, (f a).outcome.1 = .ok b ∧ (as.mapM f).outcome.1 = .ok others ∧ bs = b :: others := by
  have hlast (b : β) (others : List β) : (pure (b :: others) : Reporting (List β)).Appends :=
    appends_pure _
  rw [List.mapM_cons, bind_eq_ok_iff fun b => (appends_mapM hf as).bind (hlast b)]
  simp only [bind_eq_ok_iff (hlast _), outcome_pure, Except.ok.injEq, eq_comm, exists_and_left]

theorem mapM_cons_eq_error_iff (hf : ∀ a, (f a).Appends) {a : α} {as : List α} :
    ((a :: as).mapM f).outcome.1 = .error e ↔
      (f a).outcome.1 = .error e ∨
        (∃ b, (f a).outcome.1 = .ok b) ∧ (as.mapM f).outcome.1 = .error e := by
  have hlast (b : β) (others : List β) : (pure (b :: others) : Reporting (List β)).Appends :=
    appends_pure _
  rw [List.mapM_cons, bind_eq_error_iff fun b => (appends_mapM hf as).bind (hlast b)]
  simp only [bind_eq_error_iff (hlast _), outcome_pure, reduceCtorEq, and_false, exists_false,
    or_false, exists_and_right]

theorem mapM_eq_ok_iff (hf : ∀ a, (f a).Appends) {as : List α} {bs : List β} :
    (as.mapM f).outcome.1 = .ok bs ↔
      List.Forall₂ (fun a b => (f a).outcome.1 = .ok b) as bs := by
  induction as generalizing bs with
  | nil =>
    rw [List.mapM_nil, outcome_pure, List.forall₂_nil_left_iff, Except.ok.injEq]
    exact eq_comm
  | cons a as ih =>
    rw [mapM_cons_eq_ok_iff hf, List.forall₂_cons_left_iff]
    simp only [ih]

theorem mapM_eq_error_iff (hf : ∀ a, (f a).Appends) {as : List α} :
    (as.mapM f).outcome.1 = .error e ↔
      ∃ before a after, as = before ++ a :: after ∧
        (∀ b ∈ before, ∃ c, (f b).outcome.1 = .ok c) ∧ (f a).outcome.1 = .error e := by
  induction as with
  | nil => simp [List.mapM_nil, outcome_pure]
  | cons a as ih =>
    rw [mapM_cons_eq_error_iff hf, ih]
    constructor
    · rintro (hfirst | ⟨hfirst, before, last, after, rfl, hbefore, hlast⟩)
      · exact ⟨[], a, as, rfl, by simp, hfirst⟩
      · exact ⟨a :: before, last, after, rfl, List.forall_mem_cons.2 ⟨hfirst, hbefore⟩, hlast⟩
    · rintro ⟨before, last, after, has, hbefore, hlast⟩
      cases before with
      | nil =>
        obtain ⟨rfl, rfl⟩ := List.cons.inj has
        exact .inl hlast
      | cons b before =>
        obtain ⟨rfl, rfl⟩ := List.cons.inj has
        obtain ⟨hfirst, hbefore⟩ := List.forall_mem_cons.1 hbefore
        exact .inr ⟨hfirst, before, last, after, rfl, hbefore, hlast⟩

end Reporting

namespace Source

variable {source : Source} {limits : Limits}

/-- The rows of a source that are not skipped. -/
def clauseRows (source : Source) : List Row :=
  (rows source.text.toList).filter (!·.isIdle)

theorem mem_clauseRows {row : Row} :
    row ∈ source.clauseRows ↔ row ∈ rows source.text.toList ∧ row.isIdle = false := by
  simp [clauseRows]

theorem clauses_of_oversize (hsize : limits.sourceBytes < source.text.utf8ByteSize) :
    (source.clauses limits).outcome =
      (.error (.excess (.sourceBytes limits.sourceBytes source.text.utf8ByteSize)), #[]) := by
  unfold clauses
  rw [if_pos hsize]
  rfl

theorem clauses_eq_ok_iff {cs : List Clause} :
    (source.clauses limits).outcome.1 = .ok cs ↔
      source.text.utf8ByteSize ≤ limits.sourceBytes ∧
        List.Forall₂ (fun row c => (source.clause limits row).outcome.1 = .ok c)
          source.clauseRows cs := by
  rcases Nat.lt_or_ge limits.sourceBytes source.text.utf8ByteSize with hsize | hsize
  · simp [clauses_of_oversize hsize, Nat.not_le.2 hsize]
  · rw [outcome_clauses hsize, Reporting.mapM_eq_ok_iff (source.appends_clause limits), clauseRows]
    exact (and_iff_right hsize).symm

theorem clauses_eq_error_iff {e : Error} :
    (source.clauses limits).outcome.1 = .error e ↔
      (limits.sourceBytes < source.text.utf8ByteSize ∧
        e = .excess (.sourceBytes limits.sourceBytes source.text.utf8ByteSize)) ∨
      (source.text.utf8ByteSize ≤ limits.sourceBytes ∧
        ∃ before row after, source.clauseRows = before ++ row :: after ∧
          (∀ r ∈ before, ∃ c, (source.clause limits r).outcome.1 = .ok c) ∧
          (source.clause limits row).outcome.1 = .error e) := by
  rcases Nat.lt_or_ge limits.sourceBytes source.text.utf8ByteSize with hsize | hsize
  · simp [clauses_of_oversize hsize, hsize, Nat.not_le.2 hsize, eq_comm]
  · rw [outcome_clauses hsize, Reporting.mapM_eq_error_iff (source.appends_clause limits), clauseRows]
    simp [hsize, Nat.not_lt.2 hsize]

/-- The clause of a row has the formula that is read from it, the name of the source and the span of the
row. -/
theorem clause_eq_ok_iff {row : Row} {c : Clause} :
    (source.clause limits row).outcome.1 = .ok c ↔
      ((OpenLine.ofRow source row).clause limits).result = .ok c.formula ∧ c.sourceId = source.id ∧
        c.span = row.wholeSpan := by
  rw [outcome_clause]
  simp only
  cases ((OpenLine.ofRow source row).clause limits).result with
  | error e => simp [Except.map]
  | ok f =>
    obtain ⟨g, id, span⟩ := c
    simp [Except.map, eq_comm]

end Source

end Consequence
