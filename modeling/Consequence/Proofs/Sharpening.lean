import Mathlib
import Consequence.Proofs.FreeSymbols
import Consequence.Proofs.Updates

/-!
# More knowledge sharpens verdicts

The counters of a check may go up or down when clauses are added: new symbols double the models, and
new literals pin what was free. What only goes down is the set of models.

* `KnowledgeBase.clauses_load`, `KnowledgeBase.clauses_loadAll`: whatever sources are offered to a
  base, readable or not, its clauses stay and its limits too.
* `Statement.outcome_ofSource`: a statement is the clause of a source with no other.
* `KnowledgeBase.check_eq_ok_iff`: a check succeeds just if all of its steps do.
* `ValidBase.verdict_of_subset`: over more clauses a settled verdict stays or the base has no model.
* `KnowledgeBase.check_sharpens`: so it is for one question at two points of a run.
-/

set_option autoImplicit false

namespace Consequence

/-! ## Runs -/

namespace KnowledgeBase

/-- The base after a source was offered to it, whether it could be read or not. -/
def load (kb : KnowledgeBase) (source : Source) : KnowledgeBase :=
  ((addSource source).outcome kb).base

/-- The base after some sources were offered to it, one after the other. -/
def loadAll (kb : KnowledgeBase) (sources : List Source) : KnowledgeBase :=
  sources.foldl load kb

theorem clauses_load (kb : KnowledgeBase) (source : Source) :
    kb.clauses <+: (kb.load source).clauses ∧ (kb.load source).limits = kb.limits := by
  rw [load, base_addSource]
  cases (source.clauses kb.limits).outcome.1 with
  | ok read => exact ⟨List.prefix_append kb.clauses read, rfl⟩
  | error e => exact ⟨List.prefix_refl kb.clauses, rfl⟩

theorem clauses_loadAll (kb : KnowledgeBase) (sources : List Source) :
    kb.clauses <+: (kb.loadAll sources).clauses ∧ (kb.loadAll sources).limits = kb.limits := by
  induction sources generalizing kb with
  | nil => exact ⟨List.prefix_refl kb.clauses, rfl⟩
  | cons source sources ih =>
    obtain ⟨hclauses, hlimits⟩ := kb.clauses_load source
    obtain ⟨hclauses', hlimits'⟩ := ih (kb.load source)
    exact ⟨hclauses.trans hclauses', hlimits'.trans hlimits⟩

end KnowledgeBase

/-! ## Checks -/

namespace Statement

variable {source : Source} {limits : Limits}

theorem appends_single (source : Source) (read : List Clause) :
    Reporting.Appends (match read with
      | [clause] => Reporting.ofExcept (ofClause clause source.text)
      | clauses => throw (.clauseCount source.id clauses.length)) := by
  split
  · exact Reporting.appends_ofExcept _
  · exact Reporting.appends_throw _

theorem appends_ofSource (source : Source) (limits : Limits) : (ofSource source limits).Appends :=
  Source.appends_clauses.bind (appends_single source)

/-- A statement is read from a source that holds its clause and no other. -/
theorem outcome_ofSource (source : Source) (limits : Limits) :
    (ofSource source limits).outcome = Reporting.chain (source.clauses limits).outcome fun read =>
      match read with
      | [clause] => (ofClause clause source.text, #[])
      | clauses => (.error (.clauseCount source.id clauses.length), #[]) := by
  refine (Reporting.outcome_bind (appends_single source)).trans ?_
  congr 1
  funext read
  split
  · exact Reporting.outcome_ofExcept _
  · rfl

theorem ofSource_eq_ok_iff {statement : Statement} :
    (ofSource source limits).outcome.1 = .ok statement ↔
      (source.clauses limits).outcome.1 = .ok [statement.clause] := by
  rw [outcome_ofSource]
  rcases (source.clauses limits).outcome with ⟨e | _ | ⟨c, _ | ⟨d, others⟩⟩, given⟩ <;>
    simp [Reporting.chain, ofClause_eq_ok_iff, @eq_comm _ statement.clause]

theorem ofSource_eq_error_iff {e : Error} :
    (ofSource source limits).outcome.1 = .error e ↔
      (source.clauses limits).outcome.1 = .error e ∨
        (∃ c, (source.clauses limits).outcome.1 = .ok [c] ∧ c.rejection? source.text = some e) ∨
        ∃ read, (source.clauses limits).outcome.1 = .ok read ∧ read.length ≠ 1 ∧
          e = .clauseCount source.id read.length := by
  rw [outcome_ofSource]
  rcases (source.clauses limits).outcome with ⟨found | _ | ⟨c, _ | ⟨d, others⟩⟩, given⟩ <;>
    simp [Reporting.chain, ofClause_eq_error_iff, @eq_comm _ e]

end Statement

/-- Without a limit on free symbols every check is run. -/
theorem ValidBase.judge_unlimited {base : ValidBase} (h : base.limits.freeSymbols = none)
    (statement : Statement) : base.judge statement = .ok (base.tabulate statement) :=
  judge_of_le (by simp [h])

theorem KnowledgeBase.check_eq_ok_iff {kb : KnowledgeBase} {source : Source} {e : Entailment} :
    (kb.check source).outcome.1 = .ok e ↔
      ∃ base statement, kb.validate = .ok base ∧
        (Statement.ofSource source kb.limits).outcome.1 = .ok statement ∧
        base.judge statement = .ok e := by
  have hjudge (base : ValidBase) (statement : Statement) :
      (Reporting.ofExcept (base.judge statement)).Appends := Reporting.appends_ofExcept _
  unfold check
  rw [Reporting.bind_eq_ok_iff fun base => (Statement.appends_ofSource _ _).bind (hjudge base)]
  simp only [Reporting.bind_eq_ok_iff (hjudge _), Reporting.outcome_ofExcept, exists_and_left]

/-- Without a limit on free symbols every statement that can be read is checked against a base whose
clauses are well formed. -/
theorem KnowledgeBase.check_unlimited {kb : KnowledgeBase}
    (hvalid : ∀ clause ∈ kb.clauses, clause.formula.WellFormed)
    (hlimits : kb.limits.freeSymbols = none) {source : Source} {statement : Statement}
    (hread : (Statement.ofSource source kb.limits).outcome.1 = .ok statement) :
    (kb.check source).outcome.1 = .ok (ValidBase.tabulate ⟨kb, hvalid⟩ statement) :=
  check_eq_ok_iff.2 ⟨⟨kb, hvalid⟩, statement, validate_eq_ok_iff.2 rfl, hread,
    ValidBase.judge_unlimited hlimits statement⟩

/-! ## Verdicts -/

namespace ValidBase

variable {base larger : ValidBase} {statement : Statement}

theorem holds_of_subset (hsub : base.clauses ⊆ larger.clauses) {v : Valuation}
    (h : larger.holds v = true) : base.holds v = true := by
  rw [KnowledgeBase.holds, List.all_eq_true] at h ⊢
  exact fun clause hclause => h clause (hsub hclause)

/-- The models of the larger base are models of the smaller one, so what holds in all of those is
settled for the larger base too, or it has no model. -/
theorem settled_of_subset (hsub : base.clauses ⊆ larger.clauses) {p : Valuation → Prop}
    (hall : ∀ v, base.holds v = true → p v) :
    ((∃ v, larger.holds v = true) ∧ ∀ v, larger.holds v = true → p v) ∨
      ¬∃ v, larger.holds v = true := by
  rcases Classical.em (∃ v, larger.holds v = true) with hmodel | hnone
  · exact .inl ⟨hmodel, fun v hv => hall v (holds_of_subset hsub hv)⟩
  · exact .inr hnone

theorem verdict_of_subset (hsub : base.clauses ⊆ larger.clauses)
    (hfree : (base.freeSymbols statement).length < 64)
    (hfree' : (larger.freeSymbols statement).length < 64) :
    ((base.tabulate statement).verdict = .follows →
        (larger.tabulate statement).verdict = .follows ∨
          (larger.tabulate statement).verdict = .inconsistent) ∧
      ((base.tabulate statement).verdict = .refuted →
        (larger.tabulate statement).verdict = .refuted ∨
          (larger.tabulate statement).verdict = .inconsistent) ∧
      ((base.tabulate statement).verdict = .inconsistent →
        (larger.tabulate statement).verdict = .inconsistent) := by
  rw [verdict_eq_follows_iff hfree, verdict_eq_follows_iff hfree', verdict_eq_refuted_iff hfree,
    verdict_eq_refuted_iff hfree', verdict_eq_inconsistent_iff hfree,
    verdict_eq_inconsistent_iff hfree']
  refine ⟨?follows, ?refuted, ?inconsistent⟩
  case follows =>
    rintro ⟨-, hall⟩
    exact settled_of_subset hsub hall
  case refuted =>
    rintro ⟨-, hall⟩
    exact settled_of_subset hsub hall
  case inconsistent =>
    rintro hnone ⟨v, hv⟩
    exact hnone ⟨v, holds_of_subset hsub hv⟩

end ValidBase

namespace KnowledgeBase

/-- **Knowledge only sharpens a verdict**: where a question is checked at one point of a run and again
after more sources were offered, readable or not, a statement that followed still follows, one that
was refuted still is, or the base has become inconsistent, and an inconsistent base stays so. -/
theorem check_sharpens {kb : KnowledgeBase} {sources : List Source} {question : Source}
    {early late : Entailment} (hearly : (kb.check question).outcome.1 = .ok early)
    (hlate : ((kb.loadAll sources).check question).outcome.1 = .ok late)
    (hfree : early.freeSymbols.length < 64) (hfree' : late.freeSymbols.length < 64) :
    (early.verdict = .follows → late.verdict = .follows ∨ late.verdict = .inconsistent) ∧
      (early.verdict = .refuted → late.verdict = .refuted ∨ late.verdict = .inconsistent) ∧
      (early.verdict = .inconsistent → late.verdict = .inconsistent) := by
  obtain ⟨hclauses, hlimits⟩ := kb.clauses_loadAll sources
  obtain ⟨base, statement, hvalid, hread, hjudge⟩ := check_eq_ok_iff.1 hearly
  obtain ⟨larger, again, hvalid', hread', hjudge'⟩ := check_eq_ok_iff.1 hlate
  -- the limits did not change, so the question was read alike
  obtain rfl : statement = again := by
    rw [hlimits, hread] at hread'
    exact Except.ok.inj hread'
  obtain ⟨-, rfl⟩ := ValidBase.judge_eq_ok_iff.1 hjudge
  obtain ⟨-, rfl⟩ := ValidBase.judge_eq_ok_iff.1 hjudge'
  have hsub : base.clauses ⊆ larger.clauses := by
    rw [validate_eq_ok_iff.1 hvalid, validate_eq_ok_iff.1 hvalid']
    exact hclauses.subset
  rw [ValidBase.freeSymbols_tabulate] at hfree hfree'
  exact ValidBase.verdict_of_subset hsub hfree hfree'

/-- The base of one source that says `(or p q)` and `(not p)`. -/
def exclusion : KnowledgeBase :=
  ({} : KnowledgeBase).loadAll [⟨"rules", "(or p q)\n(not p)"⟩]

/-- That base after an unreadable source and one that says `(not q)`. -/
def exclusionOfAll : KnowledgeBase :=
  exclusion.loadAll [⟨"rules", "(and p"⟩, ⟨"more", "(not q)"⟩]

/-- With `(not q)` the base becomes inconsistent: both `p` and `q` are pinned then, `q` to the value
that it had in no model. -/
theorem check_sharpens_exclusion :
    ∃ early late,
      (exclusion.check ⟨"question", "q"⟩).outcome.1 = .ok early ∧
      (exclusionOfAll.check ⟨"question", "q"⟩).outcome.1 = .ok late ∧
      early.freeSymbols = ["q"] ∧ late.freeSymbols = [] ∧
      early.verdict = .follows ∧ (late.verdict = .follows ∨ late.verdict = .inconsistent) := by
  have hvalid := exclusion.rejection?_eq_none_iff.1 (by cbv)
  have hvalid' := exclusionOfAll.rejection?_eq_none_iff.1 (by cbv)
  have hlimits : exclusion.limits = {} := (clauses_loadAll {} _).2
  have hlimits' : exclusionOfAll.limits = {} := (exclusion.clauses_loadAll _).2.trans hlimits
  let statement : Statement := ⟨⟨.atom "q", "question", ⟨0, 1, 1, 1⟩⟩, ValidBase.askingQ.wellFormed⟩
  have hread : (Statement.ofSource ⟨"question", "q"⟩ {}).outcome.1 = .ok statement :=
    Statement.ofSource_eq_ok_iff.2 (by cbv)
  have hearly := check_unlimited hvalid (by rw [hlimits]) (by rw [hlimits]; exact hread)
  have hlate := check_unlimited hvalid' (by rw [hlimits']) (by rw [hlimits']; exact hread)
  have hfree : (ValidBase.tabulate ⟨exclusion, hvalid⟩ statement).freeSymbols = ["q"] := by cbv
  have hfree' : (ValidBase.tabulate ⟨exclusionOfAll, hvalid'⟩ statement).freeSymbols = [] := by cbv
  have hfollows : (ValidBase.tabulate ⟨exclusion, hvalid⟩ statement).verdict = .follows := by cbv
  refine ⟨_, _, hearly, hlate, hfree, hfree', hfollows, ?_⟩
  exact (check_sharpens hearly hlate (by rw [hfree]; decide) (by rw [hfree']; decide)).1 hfollows

end KnowledgeBase

end Consequence
