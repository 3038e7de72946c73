import Mathlib
import Consequence.Proofs.ByteCursor
import Consequence.Proofs.Locations

/-!
# Any use of an open line

An open line is used in any order and any number of times: for the next character, for blanks, for words,
for what is left, and for whole clauses. A use that fails leaves the line to the next one.

* `OpenLine.use`, `OpenLine.run`: what one use and a sequence of uses give.
* `OpenLine.follows_use`, `OpenLine.follows_run`: a line stays in its row and never goes back.
* `ByteLine.use?`, `ByteLine.run?`: the same by byte positions, where a slice can be missing.
* `OpenLine.use?_bytes`, `OpenLine.run?_bytes`: none is.
* `OpenLine.readsWord`: what a word is, and where reading it stops.
* `OpenLine.run_within`: so it is after any uses of any row.
-/

set_option autoImplicit false

namespace Consequence

/-- One use of an open line. -/
inductive LineUse where
  | peek
  | bump
  | skipBlanks
  | word
  | rest
  | clause (limits : Limits)

/-- What a use gives. -/
inductive LineAnswer where
  | char (next : Option Char)
  | moved
  | word (name : String)
  | text (rest : String)
  | clause (f : Formula) (warning? : Option Warning)

namespace OpenLine

/-- Uses the line once. -/
def use (line : OpenLine) : LineUse → Except Error LineAnswer × OpenLine
  | .peek => line.read (return .char (← Reader.peek))
  | .bump => line.read do
    let next ← Reader.peek
    Reader.advance
    return .char next
  | .skipBlanks => line.read do
    Reader.skipBlanks
    return .moved
  | .word => line.read (return .word (← Reader.word))
  | .rest => line.read (return .text (String.ofList (← get).ahead))
  | .clause limits =>
    let read := line.clause limits
    (read.result.map fun f => .clause f read.warning?, read.line)

/-- Uses the line in a sequence of ways, and what each use gives. -/
def run (line : OpenLine) : List LineUse → List (Except Error LineAnswer) × OpenLine
  | [] => ([], line)
  | u :: uses =>
    let step := line.use u
    let others := step.2.run uses
    (step.1 :: others.1, others.2)

end OpenLine

/-! ## Byte positions -/

/-- A row of a source that was read up to a byte position. -/
structure ByteLine where
  source : Source
  row : Row
  position : Nat

/-- The warning about the slice up to the end of the line. Its column is counted in the slice up to the
position. -/
def ByteReader.warning? (number : Nat) : ByteReader (Option Warning) := do
  let ignored ← rest
  if ignored.isEmpty then return none
  else
    let lead ← slice 0 (← position)
    return some {
      line := number
      column := lead.length + 1
      ignored := String.ofList ignored }

namespace ByteLine

variable {α : Type}

/-- Runs a reader from the byte position on. There is nothing where a slice is missing. -/
def read? (line : ByteLine) (reader : ByteReader α) : Option (Except Error α × ByteLine) :=
  match reader ⟨line.row.text, line.position⟩ with
  | .ok a cursor => some (.ok a, { line with position := cursor.position })
  | .error (.failed e) cursor =>
    some (.error ((OpenLine.ofRow line.source line.row).errorOf e),
      { line with position := cursor.position })
  | .error .outOfRange _ => none

/-- Uses the line once. -/
def use? (line : ByteLine) : LineUse → Option (Except Error LineAnswer × ByteLine)
  | .peek => line.read? (return .char (← ByteReader.peek))
  | .bump => line.read? (return .char (← ByteReader.bump))
  | .skipBlanks => line.read? do
    ByteReader.skipBlanks
    return .moved
  | .word => line.read? (return .word (← ByteReader.word))
  | .rest => line.read? (return .text (String.ofList (← ByteReader.rest)))
  | .clause limits => line.read? do
    let f ← ByteReader.clause limits.depth
    return .clause f (← ByteReader.warning? line.row.number)

/-- Uses the line in a sequence of ways, as long as no slice is missing. -/
def run? (line : ByteLine) : List LineUse → Option (List (Except Error LineAnswer) × ByteLine)
  | [] => some ([], line)
  | u :: uses => do
    let step ← line.use? u
    let others ← step.2.run? uses
    return (step.1 :: others.1, others.2)

end ByteLine

namespace OpenLine

variable {α : Type} {line later start : OpenLine} {r : Reader α} {b : ByteReader α}

/-! ## Staying in the row -/

/-- The line is the one at the start, read further. -/
structure Follows (line start : OpenLine) : Prop where
  source : line.source = start.source
  row : line.row = start.row
  moves : ∃ text, start.caret.Moves text line.caret

theorem Follows.refl (line : OpenLine) : line.Follows line :=
  ⟨rfl, rfl, [], line.caret.moves_refl⟩

theorem Follows.trans (h : line.Follows start) (h' : later.Follows line) : later.Follows start := by
  obtain ⟨text, hmoves⟩ := h.moves
  obtain ⟨next, hnext⟩ := h'.moves
  exact ⟨h'.source.trans h.source, h'.row.trans h.row, text ++ next, hmoves.trans hnext⟩

theorem Follows.position_le (h : line.Follows start) : start.caret.position ≤ line.caret.position := by
  obtain ⟨text, hmoves⟩ := h.moves
  rw [hmoves.position_eq]
  exact Nat.le_add_right _ _

theorem follows_read (h : Reader.Kept line.caret (r line.caret)) : (line.read r).2.Follows line := by
  rw [read]
  cases hr : r line.caret with
  | ok a caret => exact ⟨rfl, rfl, h.moves hr⟩
  | error e caret =>
    rw [hr] at h
    exact ⟨rfl, rfl, h.1⟩

/-- Using a line for a clause is reading one, with the warning about what is ahead then. -/
theorem use_clause (line : OpenLine) (limits : Limits) :
    line.use (.clause limits) = line.read (do
      let f ← Reader.clause limits.depth
      return .clause f { line with caret := ← get }.unread?) := by
  simp only [use, clause, read]
  cases hr : Reader.clause limits.depth line.caret with
  | ok f caret =>
    rw [bind_ok hr]
    rfl
  | error e caret =>
    rw [bind_error hr]
    rfl

theorem follows_use (line : OpenLine) (u : LineUse) : (line.use u).2.Follows line := by
  cases u with
  | peek => exact follows_read ⟨[], line.caret.moves_refl⟩
  | bump =>
    refine follows_read ?_
    cases hc : line.caret.ahead.head? with
    | none => exact ⟨[], by rw [Caret.advance_of_end hc]; exact line.caret.moves_refl⟩
    | some c => exact ⟨[c], Caret.moves_advance hc⟩
  | skipBlanks => exact follows_read ⟨_, line.caret.moves_skip isBlank⟩
  | word =>
    exact follows_read (Reader.kept_bind (Reader.kept_word _) fun name after _ => Reader.kept_pure _)
  | rest => exact follows_read ⟨[], line.caret.moves_refl⟩
  | clause limits =>
    rw [use_clause]
    exact follows_read
      (Reader.kept_bind (Reader.kept_clause _ _) fun f after _ => ⟨[], after.moves_refl⟩)

theorem follows_run (line : OpenLine) (uses : List LineUse) : (line.run uses).2.Follows line := by
  induction uses generalizing line with
  | nil => exact .refl line
  | cons u uses ih => exact (follows_use line u).trans (ih _)

/-- A line that was opened for a row stands in it. -/
theorem Follows.line_eq {source : Source} {row : Row} (h : line.Follows (ofRow source row)) :
    line.caret.line = line.row.text := by
  obtain ⟨text, hmoves⟩ := h.moves
  rw [hmoves.line_eq, h.row]
  rfl

/-! ## Byte positions -/

/-- The line, known by its byte position. -/
def bytes (line : OpenLine) : ByteLine where
  source := line.source
  row := line.row
  position := line.caret.position

theorem read?_bytes (hline : line.caret.line = line.row.text)
    (h : b line.caret.bytes = ByteReader.ofResult (r line.caret)) :
    line.bytes.read? b = some ((line.read r).1, (line.read r).2.bytes) := by
  have hcursor : line.caret.bytes = ⟨line.row.text, line.caret.position⟩ := by
    rw [← hline]
    rfl
  rw [hcursor] at h
  simp only [ByteLine.read?, read, bytes, h]
  cases r line.caret with
  | ok a caret => rfl
  | error e caret => cases e <;> rfl

theorem warning?_bytes (line : OpenLine) :
    ByteReader.warning? line.row.number line.caret.bytes = .ok line.unread? line.caret.bytes := by
  have hlead : slice? line.caret.line 0 line.caret.position = some line.caret.passed.reverse :=
    slice?_eq_some_iff.2 ⟨[], line.caret.ahead, rfl, rfl, (byteLength_reverse _).symm⟩
  rw [ByteReader.warning?, bind_ok (ByteReader.rest_bytes _), unread?]
  split
  · rfl
  · rw [bind_ok (ByteReader.position_bytes _),
      bind_ok (ByteReader.slice_bytes hlead), List.length_reverse]
    rfl

theorem use?_bytes (hline : line.caret.line = line.row.text) (u : LineUse) :
    line.bytes.use? u = some ((line.use u).1, (line.use u).2.bytes) := by
  cases u with
  | peek =>
    refine read?_bytes hline ?_
    rw [bind_ok (ByteReader.peek_bytes _)]
    rfl
  | bump =>
    refine read?_bytes hline ?_
    rw [bind_ok (ByteReader.bump_bytes _)]
    rfl
  | skipBlanks =>
    refine read?_bytes hline ?_
    rw [bind_ok (ByteReader.skipBlanks_bytes _)]
    rfl
  | word =>
    exact read?_bytes hline (ByteReader.bind_bytes (ByteReader.word_bytes _) fun name after _ => rfl)
  | rest =>
    refine read?_bytes hline ?_
    rw [bind_ok (ByteReader.rest_bytes _)]
    rfl
  | clause limits =>
    rw [use_clause]
    refine read?_bytes hline
      (ByteReader.bind_bytes (ByteReader.clause_bytes _ _) fun f after _ => ?_)
    exact bind_ok (warning?_bytes { line with caret := after })

/-- **No slice is missing** in any sequence of uses, and each gives what it gives with the caret. -/
theorem run?_bytes {source : Source} {row : Row} (h : line.Follows (ofRow source row))
    (uses : List LineUse) :
    line.bytes.run? uses = some ((line.run uses).1, (line.run uses).2.bytes) := by
  -- an open line need not stand in its row, but one that was opened for the row and then used does
  induction uses generalizing line with
  | nil => rfl
  | cons u uses ih =>
    have hnext := h.trans (follows_use line u)
    rw [ByteLine.run?, use?_bytes h.line_eq]
    simp only [Option.bind_eq_bind, Option.bind_some, ih hnext]
    rfl

/-! ## Words -/

/-- What a word is behind some text of the row: a run of symbol characters, if what stands behind the run
ends a word. Otherwise reading it fails at the next character, and names nothing else. -/
structure ReadsWord (line : OpenLine) (lead name rest : List Char) : Prop where
  row : line.row.text = lead ++ (name ++ rest)
  symbols : ∀ c ∈ name, isWordChar c = true
  maximal : ∀ c ∈ rest.head?, isWordChar c = false
  stops : (line.use .word).2.caret.position = byteLength (lead ++ name)
  succeeds : (∃ answer, (line.use .word).1 = .ok answer) ↔ EndsWord rest
  gives : EndsWord rest → (line.use .word).1 = .ok (.word (String.ofList name))
  fails : ¬ EndsWord rest → ∃ c tail span, rest = c :: tail ∧
    (line.use .word).1 = .error (.located ⟨.unexpectedChar c, span, line.source⟩) ∧
    span = line.row.span (byteLength (lead ++ name)) (byteLength (lead ++ name ++ [c])) ∧
    (line.row.LiesIn line.source.text.toList →
      span.bytes line.source.text = (String.singleton c).toByteArray)

theorem use_word_of_ok {name : String} {after : Caret} (h : Reader.word line.caret = .ok name after) :
    line.use .word = (.ok (.word name), { line with caret := after }) := by
  simp only [use, read, bind_ok h]
  rfl

theorem use_word_of_error {e : Failure} {after : Caret} (h : Reader.word line.caret = .error e after) :
    line.use .word = (.error (line.errorOf e), { line with caret := after }) := by
  simp only [use, read, bind_error h]

theorem readsWord (hline : line.caret.line = line.row.text) :
    line.ReadsWord line.caret.passed.reverse (line.caret.ahead.takeWhile isWordChar)
      (line.caret.skip isWordChar).ahead := by
  have hskip := line.caret.moves_skip isWordChar
  have hrow : line.row.text = line.caret.passed.reverse ++
      (line.caret.ahead.takeWhile isWordChar ++ (line.caret.skip isWordChar).ahead) := by
    rw [← hline, Caret.line, ← hskip.ahead]
  have hstop : (line.caret.skip isWordChar).position =
      byteLength (line.caret.passed.reverse ++ line.caret.ahead.takeWhile isWordChar) := by
    rw [hskip.position_eq, byteLength_append, byteLength_reverse, Caret.position]
  have hsymbols : ∀ c ∈ line.caret.ahead.takeWhile isWordChar, isWordChar c = true :=
    fun c hc => List.all_eq_true.1 List.all_takeWhile c hc
  have hmaximal : ∀ c ∈ (line.caret.skip isWordChar).ahead.head?, isWordChar c = false :=
    fun c hc => Caret.head?_skip hc
  rcases Reader.word_cases line.caret with ⟨hends, hword⟩ | ⟨c, hc, hnot, hword⟩
  · have huse := use_word_of_ok hword
    refine ⟨hrow, hsymbols, hmaximal, ?_, ?_, ?_, fun hnot => absurd hends hnot⟩
    · rw [huse, ← hstop]
    · exact iff_of_true ⟨_, by rw [huse]⟩ hends
    · exact fun _ => by rw [huse]
  · have huse := use_word_of_error hword
    have hends : ¬ EndsWord (line.caret.skip isWordChar).ahead := fun h => hnot (h c hc)
    obtain ⟨tail, htail⟩ := List.head?_eq_some_iff.1 hc
    refine ⟨hrow, hsymbols, hmaximal, ?_, ?_, fun h => absurd h hends, fun _ => ?_⟩
    · rw [huse, ← hstop]
    · refine iff_of_false ?_ hends
      rw [huse]
      rintro ⟨answer, h⟩
      cases h
    · -- the span of the failure ends behind the character, whose size the reader added
      have hsize : (line.caret.skip isWordChar).position + c.utf8Size =
          byteLength (line.caret.passed.reverse ++ line.caret.ahead.takeWhile isWordChar ++ [c]) := by
        rw [byteLength_append, ← hstop, byteLength_cons, byteLength_nil, Nat.add_zero]
      rw [hsize, hstop] at huse
      refine ⟨c, tail, _, htail, by rw [huse, errorOf], rfl, fun hlies => ?_⟩
      rw [String.singleton_eq_ofList]
      exact hlies.bytes_span (by rw [hrow, htail, List.append_assoc]; rfl)

/-- **Any uses of a row stay in it**: by byte positions no slice is missing, whether the uses succeed or
not, the position is between two characters of the row, no use moves it back, and a word can be read from
there just if the run of symbol characters there is in front of something that ends a word. -/
theorem run_within (source : Source) (row : Row) (uses : List LineUse) :
    ∃ answers line lead name rest, (ofRow source row).run uses = (answers, line) ∧
      ByteLine.run? ⟨source, row, 0⟩ uses =
        some (answers, ⟨source, row, line.caret.position⟩) ∧
      line.source = source ∧ line.row = row ∧
      (String.Pos.Raw.mk line.caret.position).IsValid (String.ofList row.text) ∧
      line.caret.position ≤ (String.ofList row.text).utf8ByteSize ∧
      (∀ later, line.caret.position ≤ (line.run later).2.caret.position) ∧
      line.caret.position = byteLength lead ∧ line.ReadsWord lead name rest := by
  have hfollows := follows_run (ofRow source row) uses
  have hbytes := run?_bytes (.refl (ofRow source row)) uses
  generalize hrun : (ofRow source row).run uses = outcome at hfollows hbytes
  obtain ⟨answers, line⟩ := outcome
  have hsource : line.source = source := hfollows.source
  have hrow : line.row = row := hfollows.row
  have htext : row.text = line.caret.passed.reverse ++ line.caret.ahead := by
    rw [← hrow, ← hfollows.line_eq, Caret.line]
  have hposition : line.caret.position = byteLength line.caret.passed.reverse :=
    (byteLength_reverse _).symm
  have hend : ByteLine.mk source row line.caret.position = line.bytes := by
    rw [bytes, hsource, hrow]
  refine ⟨answers, line, _, _, _, rfl, ?_, hsource, hrow, ?_, ?_, fun later => ?_, hposition,
    readsWord hfollows.line_eq⟩
  · rw [hend]
    exact hbytes
  · rw [hposition]
    exact isValid_byteLength _ _ (String.toList_ofList.trans htext)
  · rw [← byteLength_toList, String.toList_ofList, htext, byteLength_append, hposition]
    exact Nat.le_add_right _ _
  · exact (follows_run line later).position_le

/-- A character of two bytes in front of one that no word may hold, and a form that is not closed. -/
def accented : OpenLine :=
  ofText "kb" "é$ (not ü" 0 1

/-- A word fails at the second character, which is then taken, a clause fails at the end of the line, and
the word there is empty. -/
theorem run_within_accented :
    ByteLine.run? ⟨accented.source, accented.row, 0⟩ [.word, .bump, .clause {}, .word] =
      some ([.error (.located ⟨.unexpectedChar '$', ⟨2, 3, 1, 2⟩, accented.source⟩),
        .ok (.char (some '$')),
        .error (.located ⟨.unclosedForm, ⟨4, 11, 1, 4⟩, accented.source⟩),
        .ok (.word "")], ⟨accented.source, accented.row, 11⟩) := by
  obtain ⟨answers, line, lead, name, rest, hrun, hbytes, -⟩ :=
    run_within accented.source accented.row [.word, .bump, .clause {}, .word]
  have hanswers : (accented.run [.word, .bump, .clause {}, .word]).1 =
      [.error (.located ⟨.unexpectedChar '$', ⟨2, 3, 1, 2⟩, accented.source⟩),
        .ok (.char (some '$')),
        .error (.located ⟨.unclosedForm, ⟨4, 11, 1, 4⟩, accented.source⟩),
        .ok (.word "")] := by
    cbv
  have hposition : (accented.run [.word, .bump, .clause {}, .word]).2.caret.position = 11 := by
    decide +kernel
  have haccented : ofRow accented.source accented.row = accented := rfl
  rw [haccented] at hrun
  rw [hrun] at hanswers hposition
  simp only at hanswers hposition
  rw [hbytes, hanswers, hposition]

end OpenLine

end Consequence
