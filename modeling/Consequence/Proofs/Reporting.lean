import Consequence.Clause

/-!
# How loading runs

* `Reporting.Appends`: warnings that were given before stay in front and change nothing else. What is
  built of warnings, values and errors is like that.
* `Reporting.outcome_bind`, `Reporting.outcome_mapM_append`: so the outcome of several steps is put
  together from theirs.
* `OpenLine.outcome_formula`, `Source.outcome_clause`: the outcome of one row.
* `Source.outcome_clauses`: the outcome of a source that is not too long.
-/

set_option autoImplicit false

namespace Consequence

namespace Reporting

variable {α β : Type} {x : Reporting α} {f : α → Reporting β}

/-! ## Computations that add warnings -/

/-- An outcome behind warnings that were given before. -/
def resume (before : Array Warning) :
    Except Error α × Array Warning → EStateM.Result Error (Array Warning) α
  | (.ok a, given) => .ok a (before ++ given)
  | (.error e, given) => .error e (before ++ given)

/-- The computation adds its warnings to those that were given before. -/
def Appends (x : Reporting α) : Prop :=
  ∀ before, x before = resume before x.outcome

theorem outcome_pure (a : α) : (pure a : Reporting α).outcome = (.ok a, #[]) := rfl

theorem outcome_throw (e : Error) : (throw e : Reporting α).outcome = (.error e, #[]) := rfl

theorem outcome_ofExcept (r : Except Error α) : (ofExcept r).outcome = (r, #[]) := by
  cases r <;> rfl

theorem appends_pure (a : α) : (pure a : Reporting α).Appends := fun before => by
  rw [outcome_pure, resume, Array.append_empty]
  rfl

theorem appends_throw (e : Error) : (throw e : Reporting α).Appends := fun before => by
  rw [outcome_throw, resume, Array.append_empty]
  rfl

theorem appends_ofExcept (r : Except Error α) : (ofExcept r).Appends := by
  cases r with
  | ok a => exact appends_pure a
  | error e => exact appends_throw e

theorem appends_warn (w : Warning) : (warn w).Appends := fun _ => rfl

/-! ## Several steps -/

/-- The outcome of a step that goes on from the value of another one. -/
def chain (first : Except Error α × Array Warning) (rest : α → Except Error β × Array Warning) :
    Except Error β × Array Warning :=
  match first with
  | (.ok a, given) => ((rest a).1, given ++ (rest a).2)
  | (.error e, given) => (.error e, given)

theorem bind_eq (before : Array Warning) :
    (x >>= f) before = match x before with
      | .ok a given => f a given
      | .error e given => .error e given := by
  simp only [Bind.bind, EStateM.bind]
  cases x before <;> rfl

/-- The warnings of both steps are given, those of the second one only where the first succeeds. -/
theorem outcome_bind (hf : ∀ a, (f a).Appends) :
    (x >>= f).outcome = chain x.outcome fun a => (f a).outcome := by
  unfold outcome
  rw [bind_eq]
  cases x #[] with
  | error e given => rfl
  | ok a given =>
    simp only [chain]
    rw [hf a given, outcome]
    cases f a #[] <;> rfl

theorem Appends.bind (hx : x.Appends) (hf : ∀ a, (f a).Appends) : (x >>= f).Appends := by
  intro before
  rw [bind_eq, hx before, outcome_bind hf]
  rcases x.outcome with ⟨a | a, given⟩
  · rfl
  · simp only [resume, chain]
    rw [hf a]
    rcases (f a).outcome with ⟨b | b, others⟩ <;> simp [resume, Array.append_assoc]

theorem bind_eq_ok_iff (hf : ∀ a, (f a).Appends) {b : β} :
    (x >>= f).outcome.1 = .ok b ↔ ∃ a, x.outcome.1 = .ok a ∧ (f a).outcome.1 = .ok b := by
  rw [outcome_bind hf]
  rcases x.outcome with ⟨a | a, given⟩ <;> simp [chain]

/-- What is done with a value after the warnings. -/
theorem outcome_bind_pure (g : α → β) :
    (x >>= fun a => pure (g a)).outcome = (x.outcome.1.map g, x.outcome.2) := by
  rw [outcome_bind fun a => appends_pure (g a)]
  rcases x.outcome with ⟨a | a, given⟩ <;> simp [chain, outcome_pure, Except.map]

theorem appends_mapM (hf : ∀ a, (f a).Appends) (as : List α) : (as.mapM f).Appends := by
  induction as with
  | nil => exact appends_pure []
  | cons a as ih =>
    rw [List.mapM_cons]
    exact (hf a).bind fun b => ih.bind fun bs => appends_pure (b :: bs)

theorem outcome_mapM_cons (hf : ∀ a, (f a).Appends) (a : α) (as : List α) :
    ((a :: as).mapM f).outcome =
      chain (f a).outcome fun b => ((as.mapM f).outcome.1.map (b :: ·), (as.mapM f).outcome.2) := by
  rw [List.mapM_cons, outcome_bind fun b =>
    (appends_mapM hf as).bind fun bs => appends_pure (b :: bs)]
  simp only [outcome_bind_pure]

theorem outcome_mapM_append (hf : ∀ a, (f a).Appends) (as others : List α) :
    ((as ++ others).mapM f).outcome = chain (as.mapM f).outcome fun bs =>
      ((others.mapM f).outcome.1.map (bs ++ ·), (others.mapM f).outcome.2) := by
  rw [List.mapM_append, outcome_bind fun bs =>
    (appends_mapM hf others).bind fun cs => appends_pure (bs ++ cs)]
  simp only [outcome_bind_pure]

end Reporting

/-! ## Reading rows -/

namespace OpenLine

variable (line : OpenLine) (limits : Limits)

/-- One formula is read, with at most one warning. -/
theorem outcome_formula :
    (line.formula limits).outcome =
      ((line.clause limits).result, (line.clause limits).warning?.toArray) := by
  unfold formula
  generalize line.clause limits = read
  obtain ⟨result, warning?, after⟩ := read
  cases warning? <;> cases result <;> rfl

theorem appends_formula : (line.formula limits).Appends := by
  unfold formula
  generalize line.clause limits = read
  obtain ⟨result, warning?, after⟩ := read
  cases warning? with
  | none => exact Reporting.appends_ofExcept result
  | some w => exact (Reporting.appends_warn w).bind fun _ => Reporting.appends_ofExcept result

end OpenLine

namespace Source

variable (source : Source) (limits : Limits)

/-- The clause of a row is the formula that is read from it, with the span of the row. -/
theorem outcome_clause (row : Row) :
    (source.clause limits row).outcome =
      let read := (OpenLine.ofRow source row).clause limits
      (read.result.map (⟨·, source.id, row.wholeSpan⟩), read.warning?.toArray) := by
  rw [clause, Reporting.outcome_bind_pure, OpenLine.outcome_formula]

theorem appends_clause (row : Row) : (source.clause limits row).Appends :=
  (OpenLine.appends_formula _ _).bind fun _ => Reporting.appends_pure _

variable {source limits}

/-- A source that is not too long is read row by row. -/
theorem outcome_clauses (hsize : source.text.utf8ByteSize ≤ limits.sourceBytes) :
    (source.clauses limits).outcome =
      (((rows source.text.toList).filter (!·.isIdle)).mapM (source.clause limits)).outcome := by
  unfold clauses
  rw [if_neg (Nat.not_lt.2 hsize)]

theorem appends_clauses : (source.clauses limits).Appends := by
  have hread := Reporting.appends_mapM (source.appends_clause limits)
    ((rows source.text.toList).filter (!·.isIdle))
  unfold clauses
  by_cases hsize : limits.sourceBytes < source.text.utf8ByteSize
  · rw [if_pos hsize]
    exact (Reporting.appends_throw _).bind fun _ => hread
  · rw [if_neg hsize]
    exact Reporting.Appends.bind (Reporting.appends_pure PUnit.unit) fun _ => hread

end Source

end Consequence
