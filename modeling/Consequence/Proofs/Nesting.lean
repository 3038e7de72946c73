import Consequence.Proofs.Bounds

/-!
# Counting open forms

The readers that run count the forms that are open, and readers with room are told how many more may be.
Both give the same, in the same place, and behind a form the count is what it was in front of it.

* `Nesting.behind`: the count behind a failure. A form that was refused is still counted.
* `NestedReader.Follows`: a reader that counts gives what a reader with room gives.
* `NestedReader.enclosed_of_room`: a form is refused at the depth that was counted, or read one level deeper.
* `NestedReader.follows_prefixed`, `NestedReader.follows_grouped`: forms, by induction on how many may be
  inside each other.
* `Reader.formula_eq`, `Reader.canonical_eq`: so it is for clauses and for canonical texts.
-/

set_option autoImplicit false

namespace Consequence

/-- The count behind a failure: that of before, and one more if a form was refused. -/
def Nesting.behind (nesting : Nesting) : Failure → Nesting
  | .located _ _ _ => nesting
  | .tooDeep _ _ => { nesting with depth := nesting.depth + 1 }

/-- One form around another one is left, whatever happened in it. -/
theorem Nesting.leave_behind (limit depth : Nat) (e : Failure) :
    (Nesting.behind ⟨limit, depth + 1⟩ e).leave = Nesting.behind ⟨limit, depth⟩ e := by
  cases e <;> rfl

namespace NestedReader

variable {α β : Type} {nesting : Nesting} {nested : NestedReader α} {nested' : α → NestedReader β}
  {r : Reader α} {f : α → Reader β} {caret opened : Caret} {form : NestedReader Formula}
  {reader : Reader Formula} {op? : Option Connective} {done : Array Formula}
  {limit depth room rounds forms : Nat}

/-! ## Following a reader with room -/

/-- What came of reading with room, beside a count. -/
def ofResult (nesting : Nesting) :
    EStateM.Result Failure Caret α → EStateM.Result Failure (Caret × Nesting) α
  | .ok a after => .ok a (after, nesting)
  | .error e after => .error e (after, nesting.behind e)

/-- With at most so many characters ahead, the reader that counts gives what the reader with room gives,
and the count is what it was before. -/
def Follows (nesting : Nesting) (forms : Nat) (nested : NestedReader α) (r : Reader α) : Prop :=
  ∀ caret, caret.ahead.length ≤ forms → nested (caret, nesting) = ofResult nesting (r caret)

theorem Follows.bind (h : Follows nesting forms nested r)
    (hbounded : ∀ caret, Reader.Bounded room caret (r caret))
    (hnext : ∀ a, Follows nesting forms (nested' a) (f a)) :
    Follows nesting forms (nested >>= nested') (r >>= f) := by
  intro caret hforms
  have hsame := h caret hforms
  have hreach := hbounded caret
  cases hr : r caret with
  | ok a between =>
    rw [hr] at hsame hreach
    rw [bind_ok hr, bind_ok hsame]
    exact hnext a between (Nat.le_trans hreach hforms)
  | error e between =>
    rw [hr] at hsame
    rw [bind_error hr, bind_error hsame]
    rfl

/-- A reader that opens no forms is the same with a count. -/
theorem follows_ofReader (hbounded : ∀ room caret, Reader.Bounded room caret (r caret)) :
    Follows nesting forms (ofReader r) r := by
  intro caret _
  -- with room for every character a refusal is out of reach
  have hreach := hbounded caret.ahead.length caret
  unfold ofReader
  cases hr : r caret with
  | ok a after => rfl
  | error e after =>
    cases e with
    | located cause start stop => rfl
    | tooDeep limit found =>
      rw [hr] at hreach
      exact absurd hreach (Nat.lt_irrefl _)

/-- A reader that opens no forms, and what is read behind it. -/
theorem Follows.behind (hbounded : ∀ room caret, Reader.Bounded room caret (r caret))
    (hnext : ∀ a, Follows nesting forms (nested' a) (f a)) :
    Follows nesting forms (ofReader r >>= nested') (r >>= f) :=
  (follows_ofReader hbounded).bind (hbounded 0) hnext

theorem follows_pure (a : α) : Follows nesting forms (pure a) (pure a) := fun _ _ => rfl

theorem follows_fail (cause : Cause) (start stop : Nat) :
    Follows (α := α) nesting forms (ofReader (Reader.fail cause start stop))
      (Reader.fail cause start stop) := fun _ _ => rfl

theorem Follows.here {nested' : Caret → NestedReader β} {f : Caret → Reader β}
    (hnext : ∀ here, Follows nesting forms (nested' here) (f here)) :
    Follows nesting forms (NestedReader.caret >>= nested') (get >>= f) :=
  fun here => hnext here here

/-- What is read next may depend on the character ahead. -/
theorem Follows.peek {nested' : Option Char → NestedReader β} {f : Option Char → Reader β}
    (hnext : ∀ c? caret, caret.ahead.head? = c? → caret.ahead.length ≤ forms →
      nested' c? (caret, nesting) = ofResult nesting (f c? caret)) :
    Follows nesting forms (ofReader Reader.peek >>= nested') (Reader.peek >>= f) :=
  fun caret => hnext _ caret rfl

/-! ## Forms -/

/-- A form is refused where as many forms are open as may be. -/
theorem enclosed_of_full : enclosed form (caret, ⟨limit, limit⟩) =
    ofResult ⟨limit, limit⟩ (.error (.tooDeep limit (limit + 1)) caret) := by
  simp [enclosed, Nesting.enter, ofResult, Nesting.behind]

/-- Else it is read one level deeper, and the count goes back. -/
theorem enclosed_of_room {result : EStateM.Result Failure Caret Formula} (hroom : depth < limit)
    (h : form (caret, ⟨limit, depth + 1⟩) = ofResult ⟨limit, depth + 1⟩ result) :
    enclosed form (caret, ⟨limit, depth⟩) = ofResult ⟨limit, depth⟩ result := by
  have henter : (Nesting.mk limit depth).enter = (.ok (), ⟨limit, depth + 1⟩) :=
    Prod.ext ((Nesting.enter_eq_ok_iff _).2 hroom) rfl
  unfold enclosed
  simp only [henter, h]
  cases result with
  | ok a after => rfl
  | error e after => simp only [ofResult, Nesting.leave_behind]

/-- Reading a form from its parenthesis on gives what the reader with room gives. -/
def FollowsForms (nesting : Nesting) (forms : Nat) (form : NestedReader Formula)
    (reader : Reader Formula) : Prop :=
  ∀ caret, caret.ahead.head? = some '(' → caret.ahead.length ≤ forms →
    enclosed form (caret, nesting) = ofResult nesting (reader caret)

/-- A form that is not refused reads its parenthesis, and there is one character less behind it. -/
theorem followsForms_of_body {body : Caret → NestedReader Formula} {body' : Caret → Reader Formula}
    (hroom : depth < limit)
    (h : ∀ opened, Follows ⟨limit, depth + 1⟩ forms (body opened) (body' opened)) :
    FollowsForms ⟨limit, depth⟩ (forms + 1)
      (NestedReader.caret >>= fun opened => ofReader Reader.advance >>= fun _ => body opened)
      (get >>= fun opened => Reader.advance >>= fun _ => body' opened) := by
  intro caret hopen hforms
  have hlength := (Caret.moves_advance hopen).length_eq
  rw [List.length_singleton] at hlength
  exact enclosed_of_room hroom (h caret caret.advance (by omega))

theorem follows_term (hform : FollowsForms nesting forms form reader) :
    Follows nesting forms (term form) (Reader.term reader) := by
  refine Follows.behind (fun _ _ => Reader.bounded_skip) fun _ => Follows.peek fun c? caret hc hforms => ?_
  cases c? with
  | none => rfl
  | some c =>
    by_cases hopen : c = '('
    · subst hopen
      exact hform caret hc hforms
    · simp only [hopen, if_false]
      exact Follows.behind (fun _ _ => Reader.bounded_word) (fun name => follows_pure _) caret hforms

/-! ## The prefix syntax -/

theorem follows_operands (hform : FollowsForms nesting forms form reader)
    (hbounded : Reader.BoundsForms room reader) :
    Follows nesting forms (operands form opened rounds done)
      (Reader.operands reader opened rounds done) := by
  induction rounds generalizing done with
  | zero => exact follows_fail _ _ _
  | succ rounds ih =>
    refine Follows.behind (fun _ _ => Reader.bounded_skip) fun _ => Follows.peek fun c? caret hc hforms => ?_
    cases c? with
    | none => rfl
    | some c =>
      by_cases hclose : c = ')'
      · simp only [hclose, if_true]
        rfl
      · simp only [hclose, if_false]
        exact (follows_term hform).bind (fun _ => Reader.bounded_term hbounded) (fun g => ih) caret hforms

theorem follows_prefixed (hlimit : depth + room = limit) :
    FollowsForms ⟨limit, depth⟩ forms (prefixed rounds forms)
      (Reader.prefixed limit rounds room) := by
  induction forms generalizing depth room with
  | zero =>
    intro caret hopen hforms
    -- a parenthesis is ahead, so the line is not at its end
    have hpos := List.length_pos_of_mem (List.mem_of_mem_head? hopen)
    omega
  | succ forms ih =>
    cases room with
    | zero =>
      obtain rfl : depth = limit := hlimit
      exact fun _ _ _ => enclosed_of_full
    | succ room =>
      refine followsForms_of_body (by omega) fun opened => Follows.here fun start =>
        Follows.behind (fun _ _ => Reader.bounded_word) fun name => Follows.here fun stop =>
          (follows_operands (ih (by omega)) Reader.bounded_prefixed).bind
            (fun _ => Reader.bounded_operands Reader.bounded_prefixed) fun fs => ?_
      cases Connective.ofWord? name with
      | some op => exact follows_pure _
      | none =>
        simp only
        split
        · exact follows_fail _ _ _
        · exact follows_fail _ _ _

/-! ## The canonical syntax -/

theorem follows_links (hform : FollowsForms nesting forms form reader)
    (hbounded : Reader.BoundsForms room reader) :
    Follows nesting forms (links form opened rounds op? done)
      (Reader.links reader opened rounds op? done) := by
  induction rounds generalizing op? done with
  | zero => exact follows_fail _ _ _
  | succ rounds ih =>
    refine Follows.behind (fun _ _ => Reader.bounded_skip) fun _ => Follows.peek fun c? caret hc hforms => ?_
    cases c? with
    | none => rfl
    | some c =>
      by_cases hclose : c = ')'
      · simp only [hclose, if_true]
        rfl
      · simp only [hclose, if_false]
        exact Follows.behind (fun _ _ => Reader.bounded_link) (fun op =>
          (follows_term hform).bind (fun _ => Reader.bounded_term hbounded) fun g => ih) caret hforms

theorem follows_grouped (hlimit : depth + room = limit) :
    FollowsForms ⟨limit, depth⟩ forms (grouped rounds forms)
      (Reader.grouped limit rounds room) := by
  induction forms generalizing depth room with
  | zero =>
    intro caret hopen hforms
    have hpos := List.length_pos_of_mem (List.mem_of_mem_head? hopen)
    omega
  | succ forms ih =>
    cases room with
    | zero =>
      obtain rfl : depth = limit := hlimit
      exact fun _ _ _ => enclosed_of_full
    | succ room =>
      have hform : FollowsForms ⟨limit, depth + 1⟩ forms (grouped rounds forms)
          (Reader.grouped limit rounds room) := ih (by omega)
      refine followsForms_of_body (by omega) fun opened =>
        Follows.behind (fun _ _ => Reader.bounded_skip) fun _ => Follows.peek fun c? caret hc hforms => ?_
      cases c? with
      | none => rfl
      | some c =>
        by_cases hopen : c = '('
        · subst hopen
          -- a form is ahead, so it is the first operand
          have hterm : Reader.term (Reader.grouped limit rounds room) caret =
              Reader.grouped limit rounds room caret := Reader.term_of_open_here hc
          simp only [if_true]
          rw [← bind_congr hterm]
          exact (follows_term hform).bind (fun _ => Reader.bounded_term Reader.bounded_grouped)
            (fun g => follows_links hform Reader.bounded_grouped) caret hforms
        · simp only [hopen, if_false]
          refine Follows.behind (fun _ _ => Reader.bounded_word) (fun name => ?_) caret hforms
          split
          · exact (follows_term hform).bind (fun _ => Reader.bounded_term Reader.bounded_grouped) fun g =>
              Follows.behind (fun _ _ => Reader.bounded_close) fun _ => follows_pure _
          · exact follows_links hform Reader.bounded_grouped

/-! ## Whole texts -/

theorem run_of_follows (h : Follows ⟨limit, 0⟩ caret.ahead.length nested r) :
    run limit nested caret = r caret := by
  unfold run
  rw [h caret (Nat.le_refl _)]
  cases r caret <;> rfl

end NestedReader

namespace Reader

variable {caret : Caret} {limit : Nat}

theorem formula_eq : formula limit caret = term (prefixed limit caret.ahead.length limit) caret :=
  NestedReader.run_of_follows (NestedReader.follows_term (NestedReader.follows_prefixed (Nat.zero_add _)))

theorem canonical_eq :
    canonical limit caret = (do
      let f ← term (grouped limit caret.ahead.length limit)
      skipBlanks
      let rest ← get
      if rest.ahead.isEmpty then return f
      else fail (.trailingText (String.ofList rest.ahead)) rest.position rest.lineEnd) caret := by
  rw [canonical, bind_ok (get_eq caret)]
  exact bind_congr (NestedReader.run_of_follows
    (NestedReader.follows_term (NestedReader.follows_grouped (Nat.zero_add _))))

end Reader

end Consequence
