import Mathlib
import Consequence.Clause
import Consequence.Proofs.CanonicalOutput
import Consequence.Proofs.CanonicalRendering
import Consequence.Proofs.PrefixSteps
import Consequence.Proofs.Reporting
import Consequence.Proofs.UniqueReading

/-!
# Reading back canonical forms

The canonical reader takes every word `not` behind an opening parenthesis for a negation, so it does
not read back the groups that start with a symbol of this name. All other canonical forms are read
back, up to the connective of one operand.

* `Formula.ofCanonical_canonicalText_iff`: which canonical forms give the normal form back.
* `Formula.rereads_ofText_iff`: which texts in prefix form have a canonical form that is read back.
-/

set_option autoImplicit false

namespace Consequence

/-! ## Reading whole texts -/

namespace OpenLine

variable {line : OpenLine} {limits : Limits} {f : Formula}

theorem read_eq_ok_iff {α : Type} {reader : Reader α} {a : α} :
    (line.read reader).1 = .ok a ↔ ∃ after, reader line.caret = .ok a after := by
  unfold read
  cases reader line.caret with
  | ok b after => simp
  | error e after => simp

theorem result_clause :
    (line.clause limits).result = (line.read (Reader.clause limits.depth)).1 := by
  unfold clause
  split
  · next hread => rw [hread]
  · next hread => rw [hread]

end OpenLine

namespace Formula

variable {text : String} {limits : Limits} {e f : Formula}

theorem ofText_eq_ok_iff :
    (ofText text).outcome.1 = .ok f ↔
      ∃ after, Reader.clause ({} : Limits).depth { ahead := text.toList } = .ok f after := by
  rw [ofText, OpenLine.outcome_formula]
  rw [OpenLine.result_clause, OpenLine.read_eq_ok_iff]
  rfl

theorem ofCanonical_eq_ok_iff :
    ofCanonical text limits = .ok f ↔
      ∃ after, Reader.canonical limits.depth { ahead := text.toList } = .ok f after :=
  OpenLine.read_eq_ok_iff

/-- Whatever the text is, the canonical reader gives what its syntax can show. -/
theorem shown_ofCanonical (h : ofCanonical text limits = .ok f) : Shown limits.depth f := by
  obtain ⟨after, hread⟩ := ofCanonical_eq_ok_iff.1 h
  exact Reader.shown_canonical hread

/-! ## Canonical forms -/

theorem ofCanonical_canonicalText (he : e.WellFormed) (hdepth : e.depth ≤ limits.depth)
    (hback : e.ReadsBack) : ofCanonical e.canonicalText limits = .ok e.norm := by
  rw [ofCanonical_eq_ok_iff, canonicalText, String.toList_ofList]
  exact ⟨_, Reader.canonical_canonicalForm he.spelled hback hdepth he.ne_empty⟩

/-- **The domain of the canonical round trip**: the canonical form of a formula without a defect is
read back in normal form just if it is within the depth limit and no connective but `not` has a
first operand spelled `not`. The normal form means the same. -/
theorem ofCanonical_canonicalText_iff (hvalid : e.defect? = none) (limits : Limits) :
    (ofCanonical e.canonicalText limits = .ok e.norm ↔
      e.depth ≤ limits.depth ∧ e.ReadsBack) ∧ ∀ v, e.norm.truth v = e.truth v := by
  have he := (defect?_eq_none_iff e).1 hvalid
  refine ⟨⟨fun hread => ?_, fun ⟨hdepth, hback⟩ => ofCanonical_canonicalText he hdepth hback⟩,
    fun v => truth_norm v e⟩
  have hshown := shown_ofCanonical hread
  refine ⟨?_, (readsBack_norm_iff e).1 hshown.readsBack⟩
  rw [← depth_norm]
  exact hshown.depth_le

/-- Connectives whose operands are named like connectives. -/
def namedLikeConnectives : Formula :=
  .node .implies [.node .not [.atom "Not"],
    .node .xor [.node .or [.atom "and"], .atom "not", .atom "impl"]]

/-- Its canonical form is read back with three nested forms, and not with two. -/
theorem ofCanonical_canonicalText_namedLikeConnectives :
    namedLikeConnectives.defect? = none ∧
      namedLikeConnectives.canonicalText = "((not Not) impl ((and) xor not xor impl))" ∧
      ofCanonical namedLikeConnectives.canonicalText {} =
        .ok (.node .implies [.node .not [.atom "Not"],
          .node .xor [.node .and [.atom "and"], .atom "not", .atom "impl"]]) ∧
      ofCanonical namedLikeConnectives.canonicalText { depth := 2 } ≠
        .ok namedLikeConnectives.norm := by
  have hvalid : namedLikeConnectives.defect? = none := by cbv
  have hdepth : namedLikeConnectives.depth = 3 := by cbv
  have hback : namedLikeConnectives.ReadsBack := by
    simp [namedLikeConnectives, readsBack_node_iff, ReadsBack.atom]
    decide
  refine ⟨hvalid, by cbv, ?_, fun hread => ?_⟩
  · have hread := (ofCanonical_canonicalText_iff hvalid {}).1.2 ⟨by rw [hdepth]; decide, hback⟩
    rw [hread]
    cbv
  · have hle := ((ofCanonical_canonicalText_iff hvalid { depth := 2 }).1.1 hread).1
    rw [hdepth] at hle
    revert hle
    decide

/-- A text that is read and accepted has a canonical form that is read back, as the same text and
with the same truth values, just if no connective but `not` has a first operand spelled `not`. -/
theorem rereads_ofText_iff (hread : (ofText text).outcome.1 = .ok e) (hvalid : e.defect? = none) :
    (∃ f, ofCanonical e.canonicalText {} = .ok f ∧ f.canonicalText = e.canonicalText ∧
      ∀ v, f.truth v = e.truth v) ↔ e.ReadsBack := by
  have he := (defect?_eq_none_iff e).1 hvalid
  constructor
  · -- what is read back is in normal form, and its text leaves only one
    intro h
    obtain ⟨f, hf, hsame, -⟩ := h
    have hshown := shown_ofCanonical hf
    have hnorm := norm_eq_of_canonicalText_eq hshown.spelled he.spelled hsame
    rw [hshown.norm_eq] at hnorm
    rw [← readsBack_norm_iff, ← hnorm]
    exact hshown.readsBack
  · -- both readers have the same limit
    intro hback
    obtain ⟨after, hclause⟩ := ofText_eq_ok_iff.1 hread
    refine ⟨e.norm, ofCanonical_canonicalText he (Reader.depth_clause hclause) hback, ?_,
      fun v => truth_norm v e⟩
    rw [canonicalText, canonicalText, canonicalForm_norm he.spelled]

/-- A symbol `not` does no harm behind the first operand. -/
theorem rereads_ofText_or_b_not :
    (ofText "(or b not)").outcome.1 = .ok (.node .or [.atom "b", .atom "not"]) ∧
      (node .or [.atom "b", .atom "not"]).defect? = none ∧
      ∃ f, ofCanonical (node .or [.atom "b", .atom "not"]).canonicalText {} = .ok f ∧
        f.canonicalText = (node .or [.atom "b", .atom "not"]).canonicalText ∧
        ∀ v, f.truth v = (node .or [.atom "b", .atom "not"]).truth v := by
  have hread : (ofText "(or b not)").outcome.1 = .ok (.node .or [.atom "b", .atom "not"]) := by cbv
  have hvalid : (node .or [.atom "b", .atom "not"]).defect? = none := by cbv
  refine ⟨hread, hvalid, (rereads_ofText_iff hread hvalid).2 ?_⟩
  simp [readsBack_node_iff, ReadsBack.atom]
  decide

/-- A symbol `not` in the first place is taken for a negation: `(not and b)` is not read at all. -/
theorem not_forall_rereads_ofText :
    ¬∀ (text : String) (e : Formula), (ofText text).outcome.1 = .ok e → e.defect? = none →
      ∃ f, ofCanonical e.canonicalText {} = .ok f ∧ f.canonicalText = e.canonicalText ∧
        ∀ v, f.truth v = e.truth v := by
  intro hall
  obtain ⟨f, hf, -⟩ := hall "(and not b)" (.node .and [.atom "not", .atom "b"]) (by cbv) (by cbv)
  cbv at hf
  cases hf

end Formula

end Consequence
