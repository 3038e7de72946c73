/-!
# Asking until there is none

An iterator gives its next item and the state behind it, or says that there is none. `Yields` is a loop that
asks it until there is none; no bound on its rounds is part of what it means.

* `Yields.unique`: a loop that ends gives one list of items.
* `yields_iff_of_simulates`: iterators whose states correspond yield the same items.
-/

set_option autoImplicit false

namespace Consequence

variable {σ τ β : Type} {next : σ → Option β × σ} {next' : τ → Option β × τ}

/-- Asking for items from this state on gives these, and then there is none. -/
inductive Yields (next : σ → Option β × σ) : σ → List β → Prop
  | done {state : σ} (h : (next state).1 = none) : Yields next state []
  | item {state : σ} {b : β} {items : List β} (h : (next state).1 = some b)
      (rest : Yields next (next state).2 items) : Yields next state (b :: items)

theorem Yields.unique {state : σ} {items others : List β} (h : Yields next state items)
    (h' : Yields next state others) : items = others := by
  induction h generalizing others with
  | done hnone =>
    cases h' with
    | done => rfl
    | item hsome => exact absurd (hnone.symm.trans hsome) nofun
  | item hsome _ ih =>
    cases h' with
    | done hnone => exact absurd (hnone.symm.trans hsome) nofun
    | item hsome' rest =>
      obtain rfl := Option.some.inj (hsome.symm.trans hsome')
      rw [ih rest]

/-- The one list that an iterator is known to yield. -/
theorem Yields.iff_eq {state : σ} {items others : List β} (h : Yields next state items) :
    Yields next state others ↔ others = items := by
  refine ⟨fun h' => h'.unique h, ?_⟩
  rintro rfl
  exact h

/-- A loop does not see the states that it goes through, only what they give. -/
theorem yields_iff_of_simulates {image : σ → τ}
    (himage : ∀ state, next' (image state) = ((next state).1, image (next state).2)) {state : σ}
    {items : List β} : Yields next' (image state) items ↔ Yields next state items := by
  constructor
  · intro h
    generalize hstate : image state = other at h
    induction h generalizing state with
    | done hnone =>
      rw [← hstate, himage] at hnone
      exact .done hnone
    | item hsome _ ih =>
      rw [← hstate, himage] at hsome
      exact .item hsome (ih (by rw [← hstate, himage]))
  · intro h
    induction h with
    | done hnone => exact .done (by rw [himage, hnone])
    | item hsome _ ih => exact .item (by rw [himage, hsome]) (by rwa [himage])

end Consequence
