import Mathlib
import Consequence.Proofs.Defects
import Consequence.Proofs.Loading
import Consequence.Proofs.Presentation
import Consequence.Proofs.Progress

/-!
# What the prefix reader gives

A line is read as an atom without a name if the first character that is no blank is a closing
parenthesis. Otherwise it is read as a formula whose symbols are words, so that only its operand counts
may be wrong and its prefix form is read as the same formula.

* `Formula.Yielded`: what holds of a formula that a line was read as.
* `Reader.yielded_of_clause`: a line that is read.
* `Source.clauses_yielded`: every clause of a source.
* `Source.not_forall_clauses_reload`: a prefix form can be longer than the source that it was read from.
-/

set_option autoImplicit false

namespace Consequence

variable {f : Formula} {line : List Char} {limits : Limits}

/-! ## Defects -/

theorem Formula.mem_atoms_of_mem_nodes {name : String} (h : .atom name ∈ f.nodes) : name ∈ f.atoms := by
  induction f using induct with
  | atom other =>
    rw [nodes_atom, List.mem_singleton] at h
    cases h
    simp [atoms_atom]
  | node op fs ih =>
    rw [nodes_node, List.mem_cons, List.mem_flatMap] at h
    obtain h | ⟨f, hf, h⟩ := h
    · cases h
    · exact mem_atoms_node.2 ⟨f, hf, ih f hf h⟩

/-- Where every symbol is a word, only an operand count can be wrong. -/
theorem Formula.Named.eq_operandCount (hnamed : f.Named) {violation : Violation}
    (h : f.defect? = some violation) : ∃ op count, violation = .operandCount op count := by
  obtain ⟨before, g, after, hnodes, -, hbreaks⟩ := defect?_eq_some_iff.1 h
  have hmem : g ∈ f.nodes := by simp [hnodes]
  cases g with
  | atom name =>
    have hname : IsSymbol name := hnamed name (mem_atoms_of_mem_nodes hmem)
    exact absurd hbreaks (forall_not_breaks_atom_iff.2 hname violation)
  | node op fs =>
    cases hbreaks with
    | operandCount => exact ⟨op, fs.length, rfl⟩

/-! ## Lines -/

/-- What holds of a formula that a line was read as, within limits. -/
structure Formula.Yielded (f : Formula) (line : List Char) (limits : Limits) : Prop where
  /-- It is an atom without a name just if the line starts with a closing parenthesis. -/
  empty_iff : f = .atom "" ↔ (line.dropWhile isBlank).head? = some ')'
  named : f ≠ .atom "" → f.Named
  depth_le : f.depth ≤ limits.depth
  /-- Only this atom has a violation that is not about an operand count. -/
  defect : ∀ violation, f.defect? = some violation →
    (f = .atom "" ∧ violation = .emptyName) ∨ ∃ op count, violation = .operandCount op count
  /-- The prefix form is read as the formula, without a warning. -/
  rereads : f ≠ .atom "" → ∀ id, ∃ after,
    (OpenLine.ofText id f.prefixText 0 1).clause limits = ⟨.ok f, none, after⟩
  /-- A source that is the prefix form gives the formula, unless it is too long. -/
  reloads_iff : f ≠ .atom "" → ∀ id,
    ((∃ c, (Source.clauses ⟨id, f.prefixText⟩ limits).outcome = (.ok [c], #[]) ∧ c.formula = f) ↔
      f.prefixText.utf8ByteSize ≤ limits.sourceBytes)

theorem OpenLine.rereads_prefixText (hnamed : f.Named) (hdepth : f.depth ≤ limits.depth) (id : String) :
    ∃ after, (ofText id f.prefixText 0 1).clause limits = ⟨.ok f, none, after⟩ := by
  have hfirst := @Formula.firstFormula_whole f [] [] (by simp) (by simp) hnamed
  rw [List.nil_append, List.append_nil, ← String.toList_ofList (l := f.prefixForm)] at hfirst
  exact ⟨_, @clause_of_firstFormula limits f ⟨id, f.prefixText⟩ ⟨0, 1, f.prefixText.toList⟩ _ _ hfirst hdepth⟩

theorem Source.reloads_prefixText_iff (hnamed : f.Named) (hdepth : f.depth ≤ limits.depth) (id : String) :
    (∃ c, (Source.clauses ⟨id, f.prefixText⟩ limits).outcome = (.ok [c], #[]) ∧ c.formula = f) ↔
      f.prefixText.utf8ByteSize ≤ limits.sourceBytes := by
  constructor
  · rintro ⟨c, hread, -⟩
    exact (clauses_eq_ok_iff.1 (congrArg Prod.fst hread)).1
  · intro hsize
    have hpresents : Presents f f.prefixForm := by
      have hwritten := @Written.mk f [] [] (by simp [Indents]) (by simp [Indents])
      rw [List.nil_append, List.append_nil] at hwritten
      exact .last hwritten
    rw [Formula.prefixText, ← byteLength_toList, String.toList_ofList] at hsize
    exact outcome_clauses_presents hpresents hnamed hdepth hsize id

theorem Reader.yielded_of_clause {after : Caret} (h : clause limits.depth { ahead := line } = .ok f after) :
    f.Yielded line limits := by
  have hdepth := depth_clause h
  by_cases hclose : (line.dropWhile isBlank).head? = some ')'
  · rw [@clause_of_close { ahead := line } _ hclose] at h
    cases h
    refine ⟨by simp [hclose], fun hne => absurd rfl hne, hdepth, fun violation hdefect => ?_,
      fun hne => absurd rfl hne, fun hne => absurd rfl hne⟩
    cases Formula.defect?_atom_eq_some_iff.1 hdefect with
    | emptyName => exact .inl ⟨rfl, rfl⟩
    | illegalName hc => cases hc
  · obtain ⟨kept, unread, hfirst, -⟩ := firstFormula_of_clause h hclose
    have hnamed := hfirst.named
    exact ⟨by simp [hclose, hnamed.ne_empty], fun _ => hnamed, hdepth,
      fun _ hdefect => .inr (hnamed.eq_operandCount hdefect),
      fun _ => OpenLine.rereads_prefixText hnamed hdepth,
      fun _ => Source.reloads_prefixText_iff hnamed hdepth⟩

/-! ## Sources -/

namespace Source

/-- **Every clause of a source comes from a line as the reader gives it**: of the rows that are not skipped,
each gives one clause. It is the atom without a name just if the row starts with a closing parenthesis
behind its blanks. Otherwise all symbols are words, and the prefix form is read as the same formula within
the same limits, from a source of its own just if it is not too long. No formula is deeper than the limit,
and none has a defect other than an operand count, except for the atom without a name. -/
theorem clauses_yielded {source : Source} {cs : List Clause}
    (h : (source.clauses limits).outcome.1 = .ok cs) :
    List.Forall₂ (fun row c => c.formula.Yielded row.text limits) source.clauseRows cs := by
  refine (clauses_eq_ok_iff.1 h).2.imp fun row c hc => ?_
  have hread := (clause_eq_ok_iff.1 hc).1
  exact Reader.yielded_of_clause (OpenLine.result_clause_eq_ok hread)

/-- A clause with a wrong operand count, and a line that starts with a closing parenthesis. -/
def tightSource : Source :=
  ⟨"kb", "(and (not a)(not b c))\n )d"⟩

/-- The first clause is read from 22 bytes and can be written again into 26. -/
theorem clauses_yielded_tight :
    ∃ c d, (tightSource.clauses { depth := 2, sourceBytes := 26 }).outcome.1 = .ok [c, d] ∧
      (∃ other, (Source.clauses ⟨"copy", c.formula.prefixText⟩ { depth := 2, sourceBytes := 26 }).outcome =
        (.ok [other], #[]) ∧ other.formula = c.formula) ∧
      (∃ op count, c.formula.defect? = some (.operandCount op count)) ∧
      ∃ row ∈ tightSource.clauseRows, (row.text.dropWhile isBlank).head? = some ')' := by
  have hread : (tightSource.clauses { depth := 2, sourceBytes := 26 }).outcome.1 = .ok
      [⟨.node .and [.node .not [.atom "a"], .node .not [.atom "b", .atom "c"]], "kb", ⟨0, 22, 1, 1⟩⟩,
        ⟨.atom "", "kb", ⟨23, 26, 2, 1⟩⟩] := by
    cbv
  obtain ⟨first, _, hfirst, hothers, hrows⟩ := List.forall₂_cons_right_iff.1 (clauses_yielded hread)
  obtain ⟨second, _, hsecond, -, rfl⟩ := List.forall₂_cons_right_iff.1 hothers
  have hne : Formula.node .and [.node .not [.atom "a"], .node .not [.atom "b", .atom "c"]] ≠ .atom "" := by
    simp
  have hlength : (Formula.node .and [.node .not [.atom "a"],
      .node .not [.atom "b", .atom "c"]]).prefixText.utf8ByteSize = 23 := by
    cbv
  refine ⟨_, _, hread, (hfirst.reloads_iff hne "copy").2 (by rw [hlength]; decide), ?_,
    second, by simp [hrows], hsecond.empty_iff.1 rfl⟩
  obtain ⟨violation, hdefect⟩ : ∃ violation, (Formula.node .and [.node .not [.atom "a"],
      .node .not [.atom "b", .atom "c"]]).defect? = some violation := ⟨_, by cbv⟩
  obtain ⟨hempty, -⟩ | ⟨op, count, rfl⟩ := hfirst.defect violation hdefect
  · exact absurd hempty hne
  · exact ⟨op, count, hdefect⟩

/-- The prefix form of a clause can be longer than the source that it was read from, and so too long. -/
theorem not_forall_clauses_reload :
    ¬ ∀ (source : Source) (limits : Limits) (cs : List Clause),
      (source.clauses limits).outcome.1 = .ok cs → ∀ c ∈ cs, c.formula ≠ .atom "" →
        ∃ ds, (Source.clauses ⟨source.id, c.formula.prefixText⟩ limits).outcome.1 = .ok ds ∧
          ds.map (·.formula) = [c.formula] := by
  intro h
  have hread : (Source.clauses ⟨"kb", "(and (not a)(not b))"⟩ { sourceBytes := 20 }).outcome.1 = .ok
      [⟨.node .and [.node .not [.atom "a"], .node .not [.atom "b"]], "kb", ⟨0, 20, 1, 1⟩⟩] := by
    cbv
  obtain ⟨ds, hreload, -⟩ := h _ _ _ hread _ (List.mem_singleton_self _) (by simp)
  have hlength : (Formula.node .and [.node .not [.atom "a"],
      .node .not [.atom "b"]]).prefixText.utf8ByteSize = 21 := by
    cbv
  have hsize := (clauses_eq_ok_iff.1 hreload).1
  rw [hlength] at hsize
  exact absurd hsize (by decide)

end Source

end Consequence
