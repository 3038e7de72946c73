import Mathlib
import Consequence.Clause
import Consequence.Proofs.CanonicalOutput
import Consequence.Proofs.Movement

/-!
# Where the depth limit cuts

Two readers that differ only in how many forms they may open make the same of a text, up to the first
form that one of them refuses. So a limit cuts off just the formulas that are deeper than it.

* `Reader.Cut`: what the narrower of two readers makes of what the wider one reads.
* `Reader.cut_prefixed`, `Reader.cut_grouped`: forms, by induction on the room of the narrower reader.
* `Reader.bounded_clause`, `Reader.bounded_canonical`: within a limit that is out of reach no form is refused.
* `depth_limit_cuts`: clauses and canonical texts within any limit, beside a limit out of reach.
-/

set_option autoImplicit false

namespace Consequence

namespace Reader

variable {α β : Type} {r r' : Reader α} {f f' : α → Reader β} {fits : α → Prop} {good : β → Prop}
  {caret after opened : Caret} {wide narrow form : Reader Formula} {op? : Option Connective}
  {done : Array Formula} {limit free rounds room more : Nat}

/-! ## Two readers -/

/-- The second result is what a narrower reader gives where a wider one gives the first. A value is
the same if it fits, and otherwise refused; a failure is the same, unless a form is refused sooner. -/
inductive Cut (limit : Nat) (fits : α → Prop) :
    EStateM.Result Failure Caret α → EStateM.Result Failure Caret α → Prop where
  | within {a : α} {after : Caret} : fits a → Cut limit fits (.ok a after) (.ok a after)
  | beyond {a : α} {after stop : Caret} :
      ¬ fits a → Cut limit fits (.ok a after) (.error (.tooDeep limit (limit + 1)) stop)
  | fails {e : Failure} {after : Caret} : Cut limit fits (.error e after) (.error e after)
  | sooner {e : Failure} {after stop : Caret} :
      Cut limit fits (.error e after) (.error (.tooDeep limit (limit + 1)) stop)

/-- What does not fit at first does not fit later on. -/
theorem Cut.bind (h : Cut limit fits (r caret) (r' caret))
    (hfits : ∀ a between, fits a → Cut limit good (f a between) (f' a between))
    (hdeep : ∀ a between b after, ¬ fits a → f a between = .ok b after → ¬ good b) :
    Cut limit good ((r >>= f) caret) ((r' >>= f') caret) := by
  cases hr : r caret with
  | error e after =>
    rw [bind_error hr]
    rw [hr] at h
    cases hr' : r' caret with
    | ok a between =>
      rw [hr'] at h
      cases h
    | error e' stop =>
      rw [bind_error hr']
      rw [hr'] at h
      cases h with
      | fails => exact .fails
      | sooner => exact .sooner
  | ok a between =>
    rw [bind_ok hr]
    rw [hr] at h
    cases hr' : r' caret with
    | ok a' between' =>
      rw [bind_ok hr']
      rw [hr'] at h
      cases h with
      | within ha => exact hfits a between ha
    | error e stop =>
      rw [bind_error hr']
      rw [hr'] at h
      cases h with
      | beyond ha =>
        cases hf : f a between with
        | ok b after => exact .beyond (hdeep a between b after ha hf)
        | error e after => exact .sooner

/-- The first step is the same in both readers. -/
theorem cut_both (h : ∀ a between, r caret = .ok a between → Cut limit good (f a between) (f' a between)) :
    Cut limit good ((r >>= f) caret) ((r >>= f') caret) := by
  cases hr : r caret with
  | ok a between =>
    rw [bind_ok hr, bind_ok hr]
    exact h a between hr
  | error e after =>
    rw [bind_error hr, bind_error hr]
    exact .fails

/-! ## Formulas -/

/-- What the wider reader reads is cut by the narrower one where it is deeper than `room`. -/
def CutsForms (limit room : Nat) (wide narrow : Reader Formula) : Prop :=
  ∀ caret, Cut limit (fun f => f.depth ≤ room) (wide caret) (narrow caret)

theorem cut_term (hform : CutsForms limit room wide narrow) :
    CutsForms limit room (term wide) (term narrow) := by
  intro caret
  cases h : (caret.skip isBlank).ahead.head? with
  | none =>
    rw [term_of_end h, term_of_end h]
    exact .fails
  | some c =>
    by_cases hopen : c = '('
    · subst hopen
      rw [term_of_open h, term_of_open h]
      exact hform _
    · rw [term_of_word h hopen, term_of_word h hopen]
      refine cut_both fun name between _ => .within ?_
      rw [Formula.depth]
      exact Nat.zero_le room

/-! ## The prefix syntax -/

theorem mem_operands {fs : List Formula} (h : operands form opened rounds done caret = .ok fs after) :
    ∀ g ∈ done.toList, g ∈ fs := by
  induction rounds generalizing done caret with
  | zero => exact absurd h operands_zero_ne_ok
  | succ rounds ih =>
    rcases operands_succ_eq_ok_iff.1 h with ⟨_, _, rfl⟩ | ⟨_, k, _, _, _, _, hrest⟩
    · exact fun g hg => hg
    · intro g hg
      refine ih hrest g ?_
      rw [Array.toList_push]
      exact List.mem_append_left _ hg

theorem cut_operands (hform : CutsForms limit room wide narrow)
    (hdone : ∀ g ∈ done.toList, g.depth ≤ room) :
    Cut limit (fun fs => ∀ g ∈ fs, g.depth ≤ room) (operands wide opened rounds done caret)
      (operands narrow opened rounds done caret) := by
  induction rounds generalizing done caret with
  | zero => exact .fails
  | succ rounds ih =>
    cases h : (caret.skip isBlank).ahead.head? with
    | none =>
      rw [operands_of_end h, operands_of_end h]
      exact .fails
    | some c =>
      by_cases hclose : c = ')'
      · subst hclose
        rw [operands_of_close h, operands_of_close h]
        exact .within hdone
      · rw [operands_of_operand h hclose, operands_of_operand h hclose]
        refine (cut_term hform _).bind (fun g between hg => ih ?_) fun g between fs after hg hread hall => ?_
        · rw [Array.toList_push]
          exact List.forall_mem_append.2 ⟨hdone, List.forall_mem_singleton.2 hg⟩
        · -- the operand that is too deep stays among the operands
          exact hg (hall g (mem_operands hread g (by simp)))

theorem cut_prefixed (hroom : room ≤ more) :
    CutsForms limit room (prefixed free rounds more) (prefixed limit rounds room) := by
  induction room generalizing more with
  | zero =>
    intro caret
    cases hwide : prefixed free rounds more caret with
    | error e after => exact .sooner
    | ok f after =>
      refine .beyond ?_
      cases more with
      | zero => exact absurd hwide prefixed_zero_ne_ok
      | succ more =>
        obtain ⟨_, op, _, fs, _, _, _, rfl⟩ := prefixed_succ_eq_ok_iff.1 hwide
        simp [Formula.depth_node]
  | succ room ih =>
    obtain ⟨more, rfl⟩ := Nat.exists_eq_add_one.2 (Nat.zero_lt_of_lt hroom)
    intro caret
    rw [prefixed, prefixed]
    refine cut_both fun opened _ _ => cut_both fun _ _ _ => cut_both fun start _ _ =>
      cut_both fun name _ _ => cut_both fun stop _ _ => ?_
    have hoperands : ∀ caret, Cut limit (fun fs => ∀ g ∈ fs, g.depth ≤ room)
        (operands (prefixed free rounds more) opened rounds #[] caret)
        (operands (prefixed limit rounds room) opened rounds #[] caret) := fun _ =>
      cut_operands (ih (Nat.le_of_succ_le_succ hroom)) (by simp)
    cases Connective.ofWord? name with
    | some op =>
      refine (hoperands _).bind (fun fs _ hfits => .within (Formula.depth_node_le_iff.2 hfits))
        fun fs _ f _ hdeep hread => ?_
      obtain ⟨rfl, -⟩ := pure_eq_ok_iff.1 hread
      exact mt Formula.depth_node_le_iff.1 hdeep
    | none =>
      -- a word that is no connective is refused behind the operands
      simp only
      split
      · exact (hoperands _).bind (fun _ _ _ => .fails) fun _ _ _ _ _ hread => absurd hread fail_ne_ok
      · exact (hoperands _).bind (fun _ _ _ => .fails) fun _ _ _ _ _ hread => absurd hread fail_ne_ok

theorem cut_clause (hle : limit ≤ free) : CutsForms limit limit (clause free) (clause limit) := by
  intro caret
  rw [clause, clause]
  have hformula : Cut limit (fun f => f.depth ≤ limit) (formula free caret) (formula limit caret) := by
    rw [formula_eq, formula_eq]
    exact cut_term (cut_prefixed hle) caret
  refine hformula.bind (fun f between hfits => cut_both fun _ _ _ => .within hfits) ?_
  intro f between g after hdeep hread
  obtain ⟨_, _, _, hpure⟩ := bind_eq_ok_iff.1 hread
  obtain ⟨rfl, -⟩ := pure_eq_ok_iff.1 hpure
  exact hdeep

/-! ## The canonical syntax -/

theorem mem_links {f : Formula} (h : links form opened rounds op? done caret = .ok f after) :
    ∃ op fs, f = .node op fs ∧ ∀ g ∈ done.toList, g ∈ fs := by
  induction rounds generalizing op? done caret with
  | zero => exact absurd h links_zero_ne_ok
  | succ rounds ih =>
    rcases links_succ_eq_ok_iff.1 h with ⟨_, _, rfl⟩ | ⟨_, _, _, k, _, _, _, _, _, hrest⟩
    · exact ⟨_, _, rfl, fun g hg => hg⟩
    · obtain ⟨op, fs, rfl, hfs⟩ := ih hrest
      refine ⟨op, fs, rfl, fun g hg => hfs g ?_⟩
      rw [Array.toList_push]
      exact List.mem_append_left _ hg

/-- An operand that is too deep makes its group too deep. -/
theorem deep_links {f g : Formula} (h : links form opened rounds op? done caret = .ok f after)
    (hmem : g ∈ done.toList) (hdeep : ¬ g.depth ≤ room) : ¬ f.depth ≤ room + 1 := by
  obtain ⟨op, fs, rfl, hfs⟩ := mem_links h
  exact fun hfits => hdeep (Formula.depth_node_le_iff.1 hfits g (hfs g hmem))

theorem cut_links (hform : CutsForms limit room wide narrow)
    (hdone : ∀ g ∈ done.toList, g.depth ≤ room) :
    Cut limit (fun f => f.depth ≤ room + 1) (links wide opened rounds op? done caret)
      (links narrow opened rounds op? done caret) := by
  induction rounds generalizing op? done caret with
  | zero => exact .fails
  | succ rounds ih =>
    rw [links, links]
    refine cut_both fun _ _ _ => cut_both fun c? _ _ => ?_
    cases c? with
    | none => exact .fails
    | some c =>
      by_cases hclose : c = ')'
      · simp only [hclose, if_true]
        exact cut_both fun _ _ _ => .within (Formula.depth_node_le_iff.2 hdone)
      · simp only [hclose, if_false]
        refine cut_both fun op linked _ => (cut_term hform linked).bind (fun g between hg => ih ?_)
          fun g between f after hg hread => deep_links hread (by simp) hg
        rw [Array.toList_push]
        exact List.forall_mem_append.2 ⟨hdone, List.forall_mem_singleton.2 hg⟩

theorem cut_grouped (hroom : room ≤ more) :
    CutsForms limit room (grouped free rounds more) (grouped limit rounds room) := by
  induction room generalizing more with
  | zero =>
    intro caret
    cases hwide : grouped free rounds more caret with
    | error e after => exact .sooner
    | ok f after =>
      have hnode := (shown_grouped _ _ _ hwide).2
      refine .beyond ?_
      cases f with
      | atom name => cases hnode
      | node op fs => simp [Formula.depth_node]
  | succ room ih =>
    obtain ⟨more, rfl⟩ := Nat.exists_eq_add_one.2 (Nat.zero_lt_of_lt hroom)
    have hforms := ih (Nat.le_of_succ_le_succ hroom)
    intro caret
    rw [grouped, grouped]
    refine cut_both fun opened _ _ => cut_both fun _ _ _ => cut_both fun _ _ _ =>
      cut_both fun c? start _ => ?_
    cases c? with
    | none => exact .fails
    | some c =>
      by_cases hopen : c = '('
      · -- the first operand is a form
        simp only [hopen, if_true]
        exact (hforms start).bind (fun g between hg => cut_links hforms (by simpa using hg))
          fun g between f after hg hread => deep_links hread (by simp) hg
      · simp only [hopen, if_false]
        refine cut_both fun name first _ => ?_
        by_cases hnot : sameWord "not" name = true
        · simp only [hnot, if_true]
          refine (cut_term hforms first).bind
            (fun g between hg => cut_both fun _ _ _ => .within ?_) ?_
          · exact Formula.depth_node_le_iff.2 (List.forall_mem_singleton.2 hg)
          · intro g between f after hg hread
            obtain ⟨_, _, _, hpure⟩ := bind_eq_ok_iff.1 hread
            obtain ⟨rfl, -⟩ := pure_eq_ok_iff.1 hpure
            exact fun hfits => hg (Formula.depth_node_le_iff.1 hfits g List.mem_cons_self)
        · simp only [hnot]
          exact cut_links hforms (by simp [Formula.depth])

theorem cut_canonical (hle : limit ≤ free) :
    CutsForms limit limit (canonical free) (canonical limit) := by
  intro caret
  rw [canonical_eq, canonical_eq]
  refine (cut_term (cut_grouped hle) _).bind (fun f between hfits => ?_) ?_
  · refine cut_both fun _ _ _ => cut_both fun rest _ _ => ?_
    split
    · exact .within hfits
    · exact .fails
  · intro f between g after hdeep hread
    obtain ⟨_, _, _, hrest⟩ := bind_eq_ok_iff.1 hread
    obtain ⟨rest, _, _, hpure⟩ := bind_eq_ok_iff.1 hrest
    split at hpure
    · obtain ⟨rfl, -⟩ := pure_eq_ok_iff.1 hpure
      exact hdeep
    · exact absurd hpure fail_ne_ok

/-! ## Limits out of reach -/

theorem bounded_clause : Bounded limit caret (clause limit caret) := by
  have hformula : Bounded limit caret (formula limit caret) := by
    rw [formula_eq]
    exact bounded_term bounded_prefixed
  exact bounded_bind hformula fun f _ _ => bounded_bind bounded_skip fun _ _ _ => bounded_pure _

theorem bounded_canonical : Bounded limit caret (canonical limit caret) := by
  rw [canonical_eq]
  refine bounded_bind (bounded_term bounded_grouped) fun f _ _ => bounded_bind bounded_skip fun _ _ _ =>
    bounded_bind (Nat.le_refl _) fun rest _ _ => ?_
  split
  · exact bounded_pure _
  · trivial

/-- With room for every character no form is refused. -/
theorem Bounded.ne_tooDeep {result : EStateM.Result Failure Caret α} {stop : Caret}
    (h : Bounded room caret result) (hreach : caret.ahead.length ≤ room) :
    result ≠ .error (.tooDeep limit (limit + 1)) stop := by
  rintro rfl
  have hlt : room < caret.ahead.length := h
  omega

/-! ## Limits -/

/-- Where the narrower reader refuses no form, the wider one gives the same. -/
theorem Cut.swap {fits' : α → Prop} {whole cut : EStateM.Result Failure Caret α}
    (h : Cut free fits' whole cut) (hfits : ∀ a, fits' a → fits a)
    (hreach : ∀ stop, cut ≠ .error (.tooDeep free (free + 1)) stop) : Cut limit fits cut whole := by
  cases h with
  | within ha => exact .within (hfits _ ha)
  | beyond _ => exact absurd rfl (hreach _)
  | fails => exact .fails
  | sooner => exact absurd rfl (hreach _)

/-- Any limit cuts, beside a limit that is out of reach. -/
theorem cut_of_bounded {reader : Nat → Reader Formula}
    (hcut : ∀ {narrow wide}, narrow ≤ wide → CutsForms narrow narrow (reader wide) (reader narrow))
    (hbounded : Bounded free caret (reader free caret)) (hreach : caret.ahead.length ≤ free) :
    Cut limit (fun f => f.depth ≤ limit) (reader free caret) (reader limit caret) := by
  rcases Nat.le_total limit free with hle | hle
  · exact hcut hle caret
  · exact (hcut hle caret).swap (fun f hf => Nat.le_trans hf hle) fun _ => hbounded.ne_tooDeep hreach

end Reader

/-- The error names the limit on nested forms and says that they are one deeper. -/
def Error.SaysTooDeep (limit : Nat) (e : Error) : Prop :=
  ∃ excess : Excess, e = .excess excess ∧ excess.name = "max_expression_depth" ∧
    excess.limitText = toString limit ∧ excess.actualText = toString (limit + 1)

theorem Error.saysTooDeep_depth (limit : Nat) :
    (Error.excess (.depth limit (limit + 1))).SaysTooDeep limit :=
  ⟨.depth limit (limit + 1), rfl, rfl, rfl, rfl⟩

/-- `cut` is what reading gives within a limit, where `whole` is what it gives without one: the same,
down to where it stops, if the formula is no deeper than the limit, and else the error that says so.
A failure stays the same, unless a form is refused before it. -/
structure CutAt {ρ : Type} (result : ρ → Except Error Formula) (limit : Nat) (whole cut : ρ) : Prop where
  within : ∀ f, result whole = .ok f → f.depth ≤ limit → cut = whole
  beyond : ∀ f, result whole = .ok f → limit < f.depth →
    ∃ e, result cut = .error e ∧ e.SaysTooDeep limit
  error : ∀ e, result whole = .error e →
    cut = whole ∨ ∃ e', result cut = .error e' ∧ e'.SaysTooDeep limit

/-- What is made of a result is cut like the result. -/
theorem CutAt.map {ρ σ : Type} {result : ρ → Except Error Formula} {result' : σ → Except Error Formula}
    {limit : Nat} {whole cut : ρ} (h : CutAt result limit whole cut) (make : ρ → σ)
    (hmake : ∀ r, result' (make r) = result r) : CutAt result' limit (make whole) (make cut) where
  within f hf hfits := by
    rw [hmake] at hf
    rw [h.within f hf hfits]
  beyond f hf hdeep := by
    rw [hmake] at hf ⊢
    exact h.beyond f hf hdeep
  error e he := by
    rw [hmake] at he ⊢
    exact (h.error e he).imp_left fun hsame => by rw [hsame]

theorem OpenLine.cutAt_read {line : OpenLine} {limit : Nat} {wide narrow : Reader Formula}
    (h : Reader.Cut limit (fun f => f.depth ≤ limit) (wide line.caret) (narrow line.caret)) :
    CutAt Prod.fst limit (line.read wide) (line.read narrow) := by
  unfold OpenLine.read
  generalize wide line.caret = whole at h ⊢
  generalize narrow line.caret = cut at h ⊢
  cases h with
  | within hfits => exact ⟨fun _ _ _ => rfl, fun f hf hdeep => by cases hf; omega, nofun⟩
  | beyond hdeep =>
    refine ⟨fun f hf hfits => ?_, fun _ _ _ => ⟨_, rfl, Error.saysTooDeep_depth _⟩, nofun⟩
    cases hf
    exact absurd hfits hdeep
  | fails => exact ⟨nofun, nofun, fun _ _ => .inl rfl⟩
  | sooner => exact ⟨nofun, nofun, fun _ _ => .inr ⟨_, rfl, Error.saysTooDeep_depth _⟩⟩

/-- What reading a clause gives, made of what its reader gives. -/
def OpenLine.ClauseRead.ofRead : Except Error Formula × OpenLine → ClauseRead
  | (.ok f, after) => ⟨.ok f, after.unread?, after⟩
  | (.error e, after) => ⟨.error e, none, after⟩

theorem OpenLine.ClauseRead.result_ofRead (read : Except Error Formula × OpenLine) :
    (ofRead read).result = read.1 := by
  rcases read with ⟨e | f, after⟩ <;> rfl

theorem OpenLine.cutAt_clause {line : OpenLine} {free limits : Limits}
    (hreach : line.caret.ahead.length ≤ free.depth) :
    CutAt ClauseRead.result limits.depth (line.clause free) (line.clause limits) := by
  have hcut : Reader.Cut limits.depth (fun f => f.depth ≤ limits.depth)
      (Reader.clause free.depth line.caret) (Reader.clause limits.depth line.caret) :=
    Reader.cut_of_bounded Reader.cut_clause Reader.bounded_clause hreach
  exact (cutAt_read hcut).map ClauseRead.ofRead ClauseRead.result_ofRead

theorem Formula.cutAt_ofCanonical {text : String} {free limits : Limits}
    (hreach : text.length ≤ free.depth) :
    CutAt id limits.depth (ofCanonical text free) (ofCanonical text limits) := by
  have hcut : Reader.Cut limits.depth (fun f => f.depth ≤ limits.depth)
      (Reader.canonical free.depth (OpenLine.ofText "<canonical>" text 0 1).caret)
      (Reader.canonical limits.depth (OpenLine.ofText "<canonical>" text 0 1).caret) :=
    Reader.cut_of_bounded Reader.cut_canonical Reader.bounded_canonical
      (String.length_toList (s := text) ▸ hreach)
  exact (OpenLine.cutAt_read hcut).map Prod.fst fun _ => rfl

/-- **The depth limit cuts at the depth**: beside a limit that the text has too few characters to
reach, any limit leaves a formula as it is, with the place where reading stops, or refuses it for being
deeper, and it leaves an error as it is or refuses a form before it. So it is for clauses, from any
caret on, and for canonical texts. -/
theorem depth_limit_cuts (free limits : Limits) :
    (∀ line : OpenLine, line.caret.ahead.length ≤ free.depth →
      CutAt OpenLine.ClauseRead.result limits.depth (line.clause free) (line.clause limits)) ∧
    ∀ text : String, text.length ≤ free.depth →
      CutAt id limits.depth (Formula.ofCanonical text free) (Formula.ofCanonical text limits) :=
  ⟨fun _ => OpenLine.cutAt_clause, fun _ => Formula.cutAt_ofCanonical⟩

/-- Two forms side by side inside a third one. -/
def siblings : Formula :=
  .node .or [.node .not [.atom "a"], .node .not [.atom "b"]]

/-- A line with the forms in it, and more behind them. -/
def siblingsLine : OpenLine :=
  .ofText "base" "(or (not a) (not b)) (c" 0 1

/-- Forms side by side do not add up: a limit of two is enough, and one is not. -/
theorem depth_limit_cuts_siblings :
    siblingsLine.caret.ahead.length ≤ ({} : Limits).depth ∧
      "((not a) or (not b))".length ≤ ({} : Limits).depth ∧
      siblingsLine.clause { depth := 2 } = siblingsLine.clause {} ∧
      (∃ e, (siblingsLine.clause { depth := 1 }).result = .error e ∧ e.SaysTooDeep 1) ∧
      Formula.ofCanonical "((not a) or (not b))" { depth := 2 } = .ok siblings ∧
      ∃ e, Formula.ofCanonical "((not a) or (not b))" { depth := 1 } = .error e ∧
        e.SaysTooDeep 1 := by
  have hline : siblingsLine.caret.ahead.length ≤ ({} : Limits).depth := by decide
  have htext : "((not a) or (not b))".length ≤ ({} : Limits).depth := by decide
  have hdepth : siblings.depth = 2 := by cbv
  have hclause : (siblingsLine.clause {}).result = .ok siblings := by cbv
  have hcanonical : Formula.ofCanonical "((not a) or (not b))" {} = .ok siblings := by cbv
  have htwo := depth_limit_cuts {} { depth := 2 }
  have hone := depth_limit_cuts {} { depth := 1 }
  refine ⟨hline, htext, ?_, ?_, ?_, ?_⟩
  · exact (htwo.1 siblingsLine hline).within _ hclause (by rw [hdepth])
  · exact (hone.1 siblingsLine hline).beyond _ hclause (by rw [hdepth]; decide)
  · rw [(htwo.2 _ htext).within _ hcanonical (by rw [hdepth]), hcanonical]
  · exact (hone.2 _ htext).beyond _ hcanonical (by rw [hdepth]; decide)

end Consequence
