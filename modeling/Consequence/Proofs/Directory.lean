import Consequence.CommandLine.Files

/-!
# Writing and reading files

A file is put at one place and leaves what is at the others. Every directory stays one, so a path that
led somewhere still leads there, and what was written to it is read back.

* `Directory.write_eq_ok_iff`: when a file can be written. Its text plays no part.
* `Directory.read_of_write`: what was written under a path is read under it.
-/

set_option autoImplicit false

namespace Consequence

/-- Text is read back from its bytes. -/
theorem fromUTF8?_toUTF8 (text : String) : String.fromUTF8? text.toUTF8 = some text := by
  unfold String.fromUTF8?
  rw [String.toUTF8_eq_toByteArray, dif_pos text.isValidUTF8]
  rfl

/-- What a computation with a state does behind another one. -/
theorem run_bind {σ α β : Type} {x : StateM σ α} {f : α → StateM σ β} {a : α} {s s' : σ}
    (h : x.run s = (a, s')) : (x >>= f).run s = (f a).run s' := by
  rw [StateT.run_bind, h]
  rfl

namespace Directory

variable {directory after : Directory} {place start target : Place} {path text : String}

/-! ## Putting a file at a place -/

theorem find?_put (content : ByteArray) (other : Place) :
    (directory.put place content).find? other =
      if other = place then some content else directory.find? other := by
  unfold find? put
  rw [List.find?_cons, List.find?_filter]
  by_cases h : other = place
  · simp [h]
  · have hfile (file : Place × ByteArray) :
        decide (decide (file.1 ≠ place) = true ∧ decide (file.1 = other) = true) =
          decide (file.1 = other) := by
      by_cases hfile : file.1 = other <;> simp [hfile, h]
    simp only [hfile, Ne.symm h, decide_false, if_neg h]

theorem isDirectory_eq_true_iff :
    directory.isDirectory place = true ↔
      place = ["/"] ∨ (∀ name ∈ place, name = "..") ∨
        ∃ file ∈ directory.files, place <+: file.1 ∧ place ≠ file.1 := by
  simp [isDirectory, or_assoc]

/-- Every directory stays one. -/
theorem isDirectory_put (content : ByteArray) {other : Place}
    (h : directory.isDirectory other = true) :
    (directory.put place content).isDirectory other = true := by
  rw [isDirectory_eq_true_iff] at h ⊢
  obtain hroot | hup | ⟨file, hfile, hbelow⟩ := h
  · exact .inl hroot
  · exact .inr (.inl hup)
  refine .inr (.inr ?_)
  by_cases hplace : file.1 = place
  · exact ⟨(place, content), List.mem_cons_self, by rwa [← hplace]⟩
  · exact ⟨file, List.mem_cons_of_mem _ (List.mem_filter.2 ⟨hfile, by simpa using hplace⟩), hbelow⟩

/-- A file that is put at a place makes no directory of it. -/
theorem isDirectory_put_self (content : ByteArray) (h : directory.isDirectory place = false) :
    (directory.put place content).isDirectory place = false := by
  rw [← Bool.not_eq_true, isDirectory_eq_true_iff, not_or, not_or] at h ⊢
  refine ⟨h.1, h.2.1, ?_⟩
  rintro ⟨file, hfile, hbelow, hne⟩
  obtain rfl | hfile := List.mem_cons.1 hfile
  · exact hne rfl
  · exact h.2.2 ⟨file, (List.mem_filter.1 hfile).1, hbelow, hne⟩

/-- A path that led somewhere still leads there, since its way goes through directories. -/
theorem follow_put (content : ByteArray) {names : List String}
    (h : directory.follow start names = .ok target) :
    (directory.put place content).follow start names = .ok target := by
  induction names generalizing start with
  | nil => exact h
  | cons name names ih =>
    unfold follow at h ⊢
    by_cases hstart : directory.isDirectory start = true
    · rw [if_pos hstart] at h
      rw [if_pos (isDirectory_put content hstart)]
      exact ih h
    · rw [if_neg hstart] at h
      split at h <;> cases h

theorem resolve_put (content : ByteArray) (h : directory.resolve path = .ok target) :
    (directory.put place content).resolve path = .ok target := by
  unfold resolve at h ⊢
  split at h
  · cases h
  · exact follow_put content h

/-! ## Reading and writing -/

theorem read_eq_ok_iff :
    directory.read path = .ok text ↔
      ∃ place content, directory.resolve path = .ok place ∧ directory.isDirectory place = false ∧
        directory.find? place = some content ∧ path.endsWith "/" = false ∧
        String.fromUTF8? content = some text := by
  unfold read
  cases directory.resolve path with
  | error problem => simp [bind, Except.bind]
  | ok place =>
    cases hplace : directory.isDirectory place with
    | true => simp [bind, Except.bind, throw, throwThe, MonadExceptOf.throw, hplace]
    | false =>
      cases hfind : directory.find? place with
      | none => simp [bind, Except.bind, throw, throwThe, MonadExceptOf.throw, hplace, hfind]
      | some content =>
        cases hslash : path.endsWith "/" <;> cases htext : String.fromUTF8? content <;>
          simp [bind, Except.bind, pure, Except.pure, throw, throwThe, MonadExceptOf.throw, hplace,
            hfind, htext]

/-- Text can be written under a path that leads to a place without a directory and does not ask for
one. -/
theorem write_eq_ok_iff :
    directory.write path text = .ok after ↔
      ∃ place, directory.resolve path = .ok place ∧ directory.isDirectory place = false ∧
        path.endsWith "/" = false ∧ directory.put place text.toUTF8 = after := by
  unfold write
  cases directory.resolve path with
  | error problem => simp [bind, Except.bind]
  | ok place =>
    cases hplace : directory.isDirectory place <;> cases hslash : path.endsWith "/" <;>
      simp [bind, Except.bind, pure, Except.pure, throw, throwThe, MonadExceptOf.throw, hplace]

/-- A file can be written under the path, whatever its text is. -/
def Writable (directory : Directory) (path : String) : Prop :=
  ∃ place, directory.resolve path = .ok place ∧ directory.isDirectory place = false ∧
    path.endsWith "/" = false

theorem writable_iff (text : String) :
    directory.Writable path ↔ ∃ after, directory.write path text = .ok after := by
  constructor
  · rintro ⟨place, hresolve, hplace, hslash⟩
    exact ⟨_, write_eq_ok_iff.2 ⟨place, hresolve, hplace, hslash, rfl⟩⟩
  · rintro ⟨after, h⟩
    obtain ⟨place, hresolve, hplace, hslash, -⟩ := write_eq_ok_iff.1 h
    exact ⟨place, hresolve, hplace, hslash⟩

/-- **What was written under a path is read under it.** -/
theorem read_of_write (h : directory.write path text = .ok after) : after.read path = .ok text := by
  obtain ⟨place, hresolve, hplace, hslash, rfl⟩ := write_eq_ok_iff.1 h
  have hplace := isDirectory_put_self text.toUTF8 hplace
  have hfind : (directory.put place text.toUTF8).find? place = some text.toUTF8 := by
    rw [find?_put, if_pos rfl]
  exact read_eq_ok_iff.2
    ⟨place, _, resolve_put _ hresolve, hplace, hfind, hslash, fromUTF8?_toUTF8 text⟩

/-! ## As state -/

/-- Writing a file changes the directory if it succeeds. -/
theorem run_write (directory : Directory) (path text : String) :
    (access.write path text).run directory = match directory.write path text with
      | .ok after => (.ok (), after)
      | .error reason => (.error reason, directory) := by
  have hget : (get : StateM Directory Directory).run directory = (directory, directory) := rfl
  refine (run_bind hget).trans ?_
  cases directory.write path text <;> rfl

end Directory

end Consequence
