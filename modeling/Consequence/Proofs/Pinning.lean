import Mathlib
import Consequence.KnowledgeBase
import Consequence.Proofs.Seed
import Consequence.Proofs.Symbols

/-!
# The last literal counts

A seed is filled clause by clause, and a literal overwrites what an earlier one pinned. Where the clauses
have a model no literal contradicts another one, so nothing is overwritten by another value and the order
of the clauses does not matter.

* `Seed.getElem?_ofFormulas_eq_some_iff`: a symbol has the polarity of the last literal over it.
* `Seed.toList_eq_of_forall_getElem?`: seeds with the same values list the same bindings.
* `Seed.pinned_by_last_literal`: all of this, and what it means for models.
-/

set_option autoImplicit false

namespace Consequence

namespace Seed

variable {seed other : Seed} {f : Formula} {fs gs : List Formula} {name : String} {value : Bool}

/-! ## Values -/

theorem ofFormulas_append_singleton (fs : List Formula) (f : Formula) :
    ofFormulas (fs ++ [f]) = (ofFormulas fs).add f := by
  rw [ofFormulas, List.foldl_append]
  rfl

/-- A symbol has the polarity of the last literal over it. -/
theorem getElem?_ofFormulas_eq_some_iff :
    (ofFormulas fs)[name]? = some value ↔
      ∃ before after : List Formula, fs = before ++ .literal name value :: after ∧
        ∀ f ∈ after, ∀ polarity, f ≠ .literal name polarity := by
  induction fs using List.reverseRecOn with
  | nil => simp [ofFormulas]
  | append_singleton fs f ih =>
    rw [ofFormulas_append_singleton, getElem?_add_eq_some_iff, ih]
    constructor
    · rintro (rfl | ⟨hnot, before, after, rfl, hafter⟩)
      · exact ⟨fs, [], rfl, by simp⟩
      · refine ⟨before, after ++ [f], by simp, ?_⟩
        exact List.forall_mem_append.2 ⟨hafter, List.forall_mem_singleton.2 hnot⟩
    · rintro ⟨before, after, hfs, hafter⟩
      rcases List.eq_nil_or_concat after with rfl | ⟨others, last, rfl⟩
      · obtain ⟨-, hlast⟩ := List.append_inj' hfs rfl
        exact .inl (List.singleton_injective hlast)
      · rw [List.concat_eq_append, ← List.cons_append, ← List.append_assoc] at hfs
        obtain ⟨rfl, hlast⟩ := List.append_inj' hfs rfl
        obtain rfl := List.singleton_injective hlast
        rw [List.concat_eq_append, List.forall_mem_append, List.forall_mem_singleton] at hafter
        exact .inr ⟨hafter.2, before, others, rfl, hafter.1⟩

/-- A clause that is no literal can be left out, wherever it stands. -/
theorem ofFormulas_append_cons {before after : List Formula}
    (h : ∀ name value, f ≠ .literal name value) :
    ofFormulas (before ++ f :: after) = ofFormulas (before ++ after) := by
  rw [ofFormulas, ofFormulas, List.foldl_append, List.foldl_append, List.foldl_cons,
    add_of_not_literal h]

/-! ## Orders -/

/-- Seeds with the same values list the same bindings. -/
theorem toList_eq_of_forall_getElem? (h : ∀ name : String, seed[name]? = other[name]?) :
    seed.toList = other.toList := by
  have hnodup (s : Seed) : s.toList.Nodup := by
    refine Std.TreeMap.distinct_keys_toList.imp fun hne he => hne ?_
    rw [he]
    exact Std.ReflCmp.compare_self
  refine Std.TreeMap.equiv_iff_toList_eq.1 (Std.TreeMap.equiv_iff_toList_perm.2 ?_)
  rw [List.perm_ext_iff_of_nodup (hnodup seed) (hnodup other)]
  intro binding
  rw [Std.TreeMap.mem_toList_iff_getElem?_eq_some, Std.TreeMap.mem_toList_iff_getElem?_eq_some,
    h binding.1]

theorem mem_ofFormulas_iff_literal :
    name ∈ ofFormulas fs ↔ ∃ value, .literal name value ∈ fs := by
  rw [mem_ofFormulas_iff]
  simp only [Formula.literal?_eq_some_iff]
  constructor
  · rintro ⟨f, hf, value, rfl⟩
    exact ⟨value, hf⟩
  · rintro ⟨value, hf⟩
    exact ⟨_, hf, value, rfl⟩

/-- In a model of the clauses, the value of a pinned symbol is the pinned one, in whatever order the
clauses come. -/
theorem getElem?_ofFormulas_of_model {v : Valuation} (h : ∀ f ∈ fs, f.truth v = true)
    (hmem : name ∈ ofFormulas fs) : (ofFormulas fs)[name]? = some (v name) := by
  rw [Std.TreeMap.mem_iff_isSome_getElem?, Option.isSome_iff_exists] at hmem
  obtain ⟨value, hvalue⟩ := hmem
  rw [hvalue, agrees_of_forall_truth h name value hvalue]

theorem getElem?_ofFormulas_perm {v : Valuation} (h : ∀ f ∈ fs, f.truth v = true)
    (hperm : gs.Perm fs) (name : String) : (ofFormulas gs)[name]? = (ofFormulas fs)[name]? := by
  have hmem : name ∈ ofFormulas gs ↔ name ∈ ofFormulas fs := by
    simp only [mem_ofFormulas_iff_literal, hperm.mem_iff]
  by_cases hname : name ∈ ofFormulas fs
  · rw [getElem?_ofFormulas_of_model (fun g hg => h g (hperm.mem_iff.1 hg)) (hmem.2 hname),
      getElem?_ofFormulas_of_model h hname]
  · rw [Std.TreeMap.getElem?_eq_none hname, Std.TreeMap.getElem?_eq_none (mt hmem.1 hname)]

/-- **The last literal over a symbol pins it, and every model agrees**: a symbol is pinned just if it is a
clause or its negation is, and has the polarity of the last such clause. A clause of any other shape can be
left out. A valuation under which all clauses hold gives each pinned symbol its pinned value; where there
is one, every order of the clauses gives the same bindings. What is pinned by the clauses of a base is
among its symbols. -/
theorem pinned_by_last_literal (fs : List Formula) :
    (∀ name, name ∈ ofFormulas fs ↔ .atom name ∈ fs ∨ .node .not [.atom name] ∈ fs) ∧
      (∀ name value, (ofFormulas fs)[name]? = some value ↔
        ∃ before after : List Formula, fs = before ++ .literal name value :: after ∧
          ∀ f ∈ after, f ≠ .atom name ∧ f ≠ .node .not [.atom name]) ∧
      (∀ (before : List Formula) f after, fs = before ++ f :: after →
        (∀ name, f ≠ .atom name ∧ f ≠ .node .not [.atom name]) →
        ofFormulas fs = ofFormulas (before ++ after)) ∧
      (∀ v : Valuation, (∀ f ∈ fs, f.truth v = true) →
        (∀ name value, (ofFormulas fs)[name]? = some value → v name = value) ∧
          ∀ gs, gs.Perm fs → (ofFormulas gs).toList = (ofFormulas fs).toList) ∧
      ∀ base : ValidBase, ∀ name ∈ base.seed, name ∈ base.symbols.names := by
  have hshapes (f : Formula) (name : String) :
      (∀ polarity, f ≠ .literal name polarity) ↔ f ≠ .atom name ∧ f ≠ .node .not [.atom name] := by
    rw [Bool.forall_bool, and_comm]
    rfl
  refine ⟨?pinned, ?last, ?others, ?models, ?symbols⟩
  case pinned =>
    intro name
    rw [mem_ofFormulas_iff_literal, Bool.exists_bool, or_comm]
    rfl
  case last =>
    intro name value
    rw [getElem?_ofFormulas_eq_some_iff]
    simp only [hshapes]
  case others =>
    rintro before f after rfl hother
    exact ofFormulas_append_cons fun name => (hshapes f name).2 (hother name)
  case models =>
    intro v hmodel
    exact ⟨agrees_of_forall_truth hmodel, fun gs hperm =>
      toList_eq_of_forall_getElem? (getElem?_ofFormulas_perm hmodel hperm)⟩
  case symbols =>
    intro base name hname
    obtain ⟨f, hf, value, hliteral⟩ := mem_ofFormulas_iff.1 hname
    exact Symbols.mem_foldl_extend.2 (.inr ⟨f, hf, Formula.mem_atoms_of_literal? hliteral⟩)

/-- A negated symbol twice, a symbol, and two clauses of other shapes with literals inside. -/
def repeated : List Formula :=
  [.node .or [.atom "p", .node .not [.atom "s"]], .node .not [.atom "q"], .atom "p",
    .node .not [.node .not [.atom "s"]], .node .not [.atom "q"]]

theorem pinned_by_last_literal_repeated :
    "s" ∉ ofFormulas repeated ∧ (ofFormulas repeated)["q"]? = some false ∧
      (∀ f ∈ repeated, f.truth (· != "q") = true) ∧
      ofFormulas repeated = ofFormulas (repeated.tail) ∧
      (ofFormulas repeated.reverse).toList = (ofFormulas repeated).toList := by
  obtain ⟨hpinned, hlast, hothers, hmodels, -⟩ := pinned_by_last_literal repeated
  have hmodel : ∀ f ∈ repeated, f.truth (· != "q") = true := by
    simp [repeated, Formula.truth, Connective.reading]
  refine ⟨?_, ?_, hmodel, ?_, (hmodels _ hmodel).2 _ (List.reverse_perm _)⟩
  · rw [hpinned]
    simp [repeated]
  · rw [hlast]
    exact ⟨repeated.take 4, [], rfl, by simp⟩
  · exact hothers [] _ _ rfl fun name => by simp

end Seed

end Consequence
