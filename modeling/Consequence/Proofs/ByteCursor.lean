import Consequence.Proofs.Failures

/-!
# Reading by byte positions

A caret parts the characters of its line. A byte cursor only knows the line and a number, which it adds
up from the sizes of the characters it passes; it takes every character and every word as a slice of the
line, and has nothing to go on with where a slice starts or stops inside a character or behind the line.

* `slice?_eq_some_iff`: which slices there are.
* `ByteReader`: the readers of the prefix syntax on byte positions.
* `ByteReader.bind_bytes`: a sequence of two readers follows the carets if both readers do.
* `ByteReader.word_bytes`, `ByteReader.term_bytes`, `ByteReader.operands_bytes`,
  `ByteReader.prefixed_bytes`: one lemma for each reader.
* `ByteReader.clause_bytes`: so reading a clause by byte positions gives what reading it with a caret gives,
  and no slice is missing.
-/

set_option autoImplicit false

namespace Consequence

/-! ## Slices -/

/-- The parts of a text before and behind a byte position, if it stands between characters. -/
def splitBytes? : Nat → List Char → Option (List Char × List Char)
  | n, [] => if n = 0 then some ([], []) else none
  | n, c :: text =>
    if n = 0 then some ([], c :: text)
    else if n < c.utf8Size then none
    else (splitBytes? (n - c.utf8Size) text).map fun parts => (c :: parts.1, parts.2)

/-- The text between two byte positions, if both stand between characters and in this order. -/
def slice? (text : List Char) (start stop : Nat) : Option (List Char) :=
  if stop < start then none
  else do
    let behind ← splitBytes? start text
    let within ← splitBytes? (stop - start) behind.2
    return within.1

theorem splitBytes?_byteLength (lead rest : List Char) :
    splitBytes? (byteLength lead) (lead ++ rest) = some (lead, rest) := by
  induction lead with
  | nil => cases rest <;> simp [splitBytes?]
  | cons c lead ih =>
    have hc := c.utf8Size_pos
    rw [List.cons_append, splitBytes?, byteLength_cons, if_neg (by omega), if_neg (by omega),
      Nat.add_sub_cancel_left, ih]
    rfl

theorem splitBytes?_eq_some_iff {n : Nat} {text lead rest : List Char} :
    splitBytes? n text = some (lead, rest) ↔ text = lead ++ rest ∧ n = byteLength lead := by
  constructor
  · intro h
    induction text generalizing n lead with
    | nil => simp_all [splitBytes?]
    | cons c text ih =>
      rw [splitBytes?] at h
      split at h
      · simp_all
      · split at h
        · cases h
        · obtain ⟨parts, hparts, hcons⟩ := Option.map_eq_some_iff.1 h
          obtain ⟨rfl, rfl⟩ := Prod.mk.inj hcons
          obtain ⟨rfl, hn⟩ := ih hparts
          refine ⟨rfl, ?_⟩
          rw [byteLength_cons]
          omega
  · rintro ⟨rfl, rfl⟩
    exact splitBytes?_byteLength lead rest

/-- A slice stands between two places of the text, with a text before it and one behind it. -/
theorem slice?_eq_some_iff {text part : List Char} {start stop : Nat} :
    slice? text start stop = some part ↔
      ∃ lead rest, text = lead ++ (part ++ rest) ∧ start = byteLength lead ∧
        stop = byteLength (lead ++ part) := by
  constructor
  · intro h
    rw [slice?] at h
    split at h
    · cases h
    · next hle =>
      obtain ⟨behind, hbehind, h⟩ := Option.bind_eq_some_iff.1 h
      obtain ⟨within, hwithin, h⟩ := Option.bind_eq_some_iff.1 h
      obtain rfl : within.1 = part := Option.some.inj h
      obtain ⟨rfl, rfl⟩ := splitBytes?_eq_some_iff.1 hbehind
      obtain ⟨hpart, hstop⟩ := splitBytes?_eq_some_iff.1 hwithin
      refine ⟨behind.1, within.2, by rw [hpart], rfl, ?_⟩
      rw [byteLength_append]
      omega
  · rintro ⟨lead, rest, rfl, rfl, rfl⟩
    have hle : byteLength lead ≤ byteLength (lead ++ part) := by simp
    rw [slice?, if_neg (by omega), splitBytes?_byteLength, byteLength_append,
      Nat.add_sub_cancel_left]
    simp only [Option.bind_eq_bind, Option.bind_some, splitBytes?_byteLength]
    rfl

/-! ## Cursors -/

/-- A line and a byte position, of which nothing says that it stands between characters. -/
structure ByteCursor where
  line : List Char
  position : Nat

/-- Why reading by byte positions stops: it fails, or it needs a slice that is not there. -/
inductive Stop where
  | failed (failure : Failure)
  | outOfRange

/-- Reads something from a byte position. -/
abbrev ByteReader := EStateM Stop ByteCursor

/-- The byte cursor where the caret stands. -/
def Caret.bytes (caret : Caret) : ByteCursor where
  line := caret.line
  position := caret.position

/-- Moving past a character adds its size. -/
theorem Caret.bytes_advance {caret : Caret} {c : Char} (h : caret.ahead.head? = some c) :
    caret.advance.bytes = { line := caret.line, position := caret.position + c.utf8Size } := by
  have hmoves := moves_advance h
  rw [bytes, hmoves.line_eq, hmoves.position_eq, byteLength_cons, byteLength_nil, Nat.add_zero]

/-- The text that a caret moves over is the slice between its two positions. -/
theorem Caret.Moves.slice {caret after : Caret} {text : List Char} (h : caret.Moves text after) :
    slice? after.line caret.position after.position = some text := by
  refine slice?_eq_some_iff.2 ⟨caret.passed.reverse, after.ahead, ?_, ?_, ?_⟩
  · rw [h.line_eq, line, h.ahead]
  · rw [byteLength_reverse, position]
  · rw [h.position_eq, byteLength_append, byteLength_reverse, position]

namespace ByteReader

variable {α β : Type}

/-- The byte position. -/
def position : ByteReader Nat :=
  return (← get).position

/-- A slice of the line. -/
def slice (start stop : Nat) : ByteReader (List Char) := do
  match slice? (← get).line start stop with
  | some part => return part
  | none => throw .outOfRange

/-- What is ahead: the slice up to the end of the line. -/
def rest : ByteReader (List Char) := do
  slice (← position) (byteLength (← get).line)

/-- The next character. -/
def peek : ByteReader (Option Char) :=
  return (← rest).head?

/-- Moves past one character, by its size. -/
def bump : ByteReader (Option Char) := do
  match ← peek with
  | none => return none
  | some c =>
    modify fun cursor => { cursor with position := cursor.position + c.utf8Size }
    return some c

/-- Moves past characters that satisfy `p`, one by one. -/
def skip (p : Char → Bool) : Nat → ByteReader Unit
  | 0 => return ()
  | rounds + 1 => do
    match ← peek with
    | none => return ()
    | some c =>
      if p c then do
        let _ ← bump
        skip p rounds
      else return ()

/-- Moves past blanks. -/
def skipBlanks : ByteReader Unit := do
  skip isBlank (← get).line.length

/-- Fails with a cause between two positions. The column of the first one is counted in a slice. -/
def fail (cause : Cause) (start stop : Nat) : ByteReader α := do
  let _ ← slice 0 start
  throw (.failed (.located cause start stop))

/-- Reads a run of symbol characters as the slice between its first and its last byte. -/
def word : ByteReader String := do
  let start ← position
  skip isWordChar (← get).line.length
  let stop ← position
  match ← peek with
  | some c =>
    if c = ')' || isBlank c then return String.ofList (← slice start stop)
    else fail (.unexpectedChar c) stop (stop + c.utf8Size)
  | none => return String.ofList (← slice start stop)

/-- Reads one formula: an atom, or a parenthesised form, which `form` reads. -/
def term (form : ByteReader Formula) : ByteReader Formula := do
  skipBlanks
  match ← peek with
  | none =>
    let here ← position
    fail .missingFormula here here
  | some c => if c = '(' then form else return .atom (← word)

/-- Fails for a form that opened at a byte position and never closes. -/
def unclosed (opened : Nat) : ByteReader α := do
  fail .unclosedForm opened (byteLength (← get).line)

/-- Reads the operands of a form that opened at a byte position, and its closing parenthesis. -/
def operands (form : ByteReader Formula) (opened : Nat) :
    Nat → Array Formula → ByteReader (List Formula)
  | 0, _ => unclosed opened
  | rounds + 1, done => do
    skipBlanks
    match ← peek with
    | none => unclosed opened
    | some c =>
      if c = ')' then
        let _ ← bump
        return done.toList
      else
        operands form opened rounds (done.push (← term form))

/-- Reads a form of the prefix syntax. -/
def prefixed (limit rounds : Nat) : (room : Nat) → ByteReader Formula
  | 0 => throw (.failed (.tooDeep limit (limit + 1)))
  | room + 1 => do
    let opened ← position
    let _ ← bump
    let start ← position
    let name ← word
    let stop ← position
    let fs ← operands (prefixed limit rounds room) opened rounds #[]
    match Connective.ofWord? name with
    | some op => return .node op fs
    | none =>
      if name = "" then fail .missingConnective opened (opened + 1)
      else fail (.unknownConnective name) start stop

/-- Reads one formula and the blanks behind it. -/
def clause (limit : Nat) : ByteReader Formula := do
  let f ← term (prefixed limit (← rest).length limit)
  skipBlanks
  return f

/-! ## Following a caret -/

/-- What came of reading with a caret, told by byte positions. -/
def ofResult : EStateM.Result Failure Caret α → EStateM.Result Stop ByteCursor α
  | .ok a after => .ok a after.bytes
  | .error e after => .error (.failed e) after.bytes

variable {b : ByteReader α} {g : α → ByteReader β} {r : Reader α} {f : α → Reader β} {caret : Caret}

theorem bind_bytes (hb : b caret.bytes = ofResult (r caret))
    (hg : ∀ a between, r caret = .ok a between → g a between.bytes = ofResult (f a between)) :
    (b >>= g) caret.bytes = ofResult ((r >>= f) caret) := by
  cases hr : r caret with
  | ok a between =>
    rw [hr] at hb
    rw [bind_ok hb, bind_ok hr, hg a between hr]
  | error e after =>
    rw [hr] at hb
    rw [bind_error hr]
    simp [bind, EStateM.bind, hb, ofResult]

/-! ## Single steps -/

theorem get_bytes (caret : Caret) :
    (get : ByteReader ByteCursor) caret.bytes = .ok caret.bytes caret.bytes := rfl

theorem position_bytes (caret : Caret) : position caret.bytes = .ok caret.position caret.bytes := rfl

theorem slice_bytes {start stop : Nat} {part : List Char}
    (h : slice? caret.line start stop = some part) :
    slice start stop caret.bytes = .ok part caret.bytes := by
  rw [slice, bind_ok (get_bytes caret)]
  simp only [Caret.bytes, h]
  rfl

theorem rest_bytes (caret : Caret) : rest caret.bytes = .ok caret.ahead caret.bytes := by
  have hslice : slice? caret.line caret.position (byteLength caret.line) = some caret.ahead :=
    slice?_eq_some_iff.2 ⟨caret.passed.reverse, [], by rw [Caret.line, List.append_nil],
      by rw [Caret.position, byteLength_reverse], by rw [Caret.line]⟩
  rw [rest, bind_ok (position_bytes caret), bind_ok (get_bytes caret)]
  exact slice_bytes hslice

theorem peek_bytes (caret : Caret) : peek caret.bytes = .ok caret.ahead.head? caret.bytes := by
  rw [peek, bind_ok (rest_bytes caret)]
  rfl

theorem bump_bytes (caret : Caret) : bump caret.bytes = .ok caret.ahead.head? caret.advance.bytes := by
  rw [bump, bind_ok (peek_bytes caret)]
  cases h : caret.ahead.head? with
  | none =>
    rw [Caret.advance_of_end h]
    rfl
  | some c =>
    rw [Caret.bytes_advance h]
    rfl

theorem skip_bytes {p : Char → Bool} {rounds : Nat} (h : caret.ahead.length ≤ rounds) :
    skip p rounds caret.bytes = .ok () (caret.skip p).bytes := by
  induction rounds generalizing caret with
  | zero =>
    have hnil : caret.ahead = [] := List.length_eq_zero_iff.1 (Nat.le_zero.1 h)
    rw [Caret.skip_of_end (by rw [hnil, List.head?_nil])]
    rfl
  | succ rounds ih =>
    rw [skip, bind_ok (peek_bytes caret)]
    cases hc : caret.ahead.head? with
    | none =>
      rw [Caret.skip_of_end hc]
      rfl
    | some c =>
      by_cases hp : p c = true
      · have hlength := (Caret.moves_advance hc).length_eq
        rw [List.length_singleton] at hlength
        simp only [hp, if_true]
        rw [bind_ok (bump_bytes caret), ih (by omega), Caret.skip_advance hc hp]
      · simp only [hp]
        rw [Caret.skip_eq_self caret hc (Bool.eq_false_iff.2 hp)]
        rfl

theorem skipBlanks_bytes (caret : Caret) :
    skipBlanks caret.bytes = .ok () (caret.skip isBlank).bytes := by
  rw [skipBlanks, bind_ok (get_bytes caret)]
  exact skip_bytes (by simp [Caret.bytes, Caret.line])

theorem fail_bytes {cause : Cause} {start stop : Nat} (h : Marks caret.line start stop) :
    (fail cause start stop : ByteReader α) caret.bytes =
      ofResult ((Reader.fail cause start stop : Reader α) caret) := by
  obtain ⟨lead, marked, rest, hline, rfl, rfl⟩ := h
  have hslice : slice? caret.line 0 (byteLength lead) = some lead :=
    slice?_eq_some_iff.2 ⟨[], marked ++ rest, hline, rfl, rfl⟩
  rw [fail, bind_ok (slice_bytes hslice)]
  rfl

/-! ## Words and formulas -/

theorem word_bytes (caret : Caret) : word caret.bytes = ofResult (Reader.word caret) := by
  have hskip := caret.moves_skip isWordChar
  have hrun := slice_bytes hskip.slice
  have hrounds : caret.ahead.length ≤ caret.bytes.line.length := by simp [Caret.bytes, Caret.line]
  rw [word, bind_ok (position_bytes caret), bind_ok (get_bytes caret), bind_ok (skip_bytes hrounds),
    bind_ok (position_bytes _), bind_ok (peek_bytes _)]
  rcases Reader.word_cases caret with ⟨hends, hword⟩ | ⟨c, hc, hnot, hword⟩
  · -- the word is sliced at the end of the line and in front of a character alike
    rw [hword]
    cases hc : (caret.skip isWordChar).ahead.head? with
    | none =>
      simp only
      rw [bind_ok hrun]
      rfl
    | some c =>
      simp only [Bool.or_eq_true, decide_eq_true_eq, hends c hc, if_true]
      rw [bind_ok hrun]
      rfl
  · rw [hword, hc]
    simp only [Bool.or_eq_true, decide_eq_true_eq, hnot, if_false]
    exact fail_bytes (Caret.marks_char hc)

/-- Reading a form by byte positions is reading it with a caret, from its parenthesis on. -/
def FollowsForms (form : ByteReader Formula) (forms : Reader Formula) : Prop :=
  ∀ caret : Caret, caret.ahead.head? = some '(' → form caret.bytes = ofResult (forms caret)

section
variable {form : ByteReader Formula} {forms : Reader Formula}

theorem term_bytes (hform : FollowsForms form forms) (caret : Caret) :
    term form caret.bytes = ofResult (Reader.term forms caret) := by
  rw [term, bind_ok (skipBlanks_bytes caret), bind_ok (peek_bytes _)]
  cases hc : (caret.skip isBlank).ahead.head? with
  | none =>
    rw [Reader.term_of_end hc]
    exact fail_bytes (Caret.moves_refl (caret.skip isBlank)).marks
  | some c =>
    by_cases hopen : c = '('
    · subst hopen
      rw [Reader.term_of_open hc]
      exact hform _ hc
    · rw [Reader.term_of_word hc hopen]
      simp only [hopen, if_false]
      exact bind_bytes (word_bytes _) fun name after _ => rfl

/-! ## Forms -/

theorem unclosed_bytes {opened : Caret} {text : List Char} (hopened : opened.Moves text caret) :
    (unclosed opened.position : ByteReader α) caret.bytes =
      ofResult ((Reader.unclosed opened : Reader α) caret) := by
  have hmarks := opened.marks_lineEnd
  rw [opened.lineEnd_eq, ← hopened.line_eq] at hmarks
  rw [unclosed, bind_ok (get_bytes caret), Reader.unclosed, opened.lineEnd_eq, ← hopened.line_eq]
  exact fail_bytes hmarks

theorem operands_bytes (hform : FollowsForms form forms) (hkeeps : Reader.KeepsForms forms)
    (rounds : Nat) (done : Array Formula) {opened : Caret} {text : List Char}
    (hopened : opened.Moves text caret) :
    operands form opened.position rounds done caret.bytes =
      ofResult (Reader.operands forms opened rounds done caret) := by
  induction rounds generalizing text done caret with
  | zero => exact unclosed_bytes hopened
  | succ rounds ih =>
    have hskip := hopened.trans (caret.moves_skip isBlank)
    rw [operands, bind_ok (skipBlanks_bytes caret), bind_ok (peek_bytes _)]
    cases hc : (caret.skip isBlank).ahead.head? with
    | none =>
      rw [Reader.operands_of_end hc]
      exact unclosed_bytes hskip
    | some c =>
      by_cases hclose : c = ')'
      · subst hclose
        rw [Reader.operands_of_close hc]
        simp only [if_true]
        rw [bind_ok (bump_bytes _)]
        rfl
      · rw [Reader.operands_of_operand hc hclose]
        simp only [hclose, if_false]
        refine bind_bytes (term_bytes hform _) fun g between hread => ?_
        obtain ⟨next, hmoves⟩ := (Reader.kept_term hkeeps _).moves hread
        exact ih (done.push g) (hskip.trans hmoves)

end

theorem prefixed_bytes {limit rounds room : Nat} :
    FollowsForms (prefixed limit rounds room) (Reader.prefixed limit rounds room) := by
  induction room with
  | zero => exact fun caret _ => rfl
  | succ room ih =>
    intro opened hopen
    have hadvance := Caret.moves_advance hopen
    rw [prefixed, bind_ok (position_bytes opened), bind_ok (bump_bytes opened),
      bind_ok (position_bytes _)]
    rw [Reader.prefixed, bind_ok (Reader.get_eq opened), bind_ok (Reader.advance_eq _),
      bind_ok (Reader.get_eq _)]
    refine bind_bytes (word_bytes _) fun name stop hword => ?_
    have hstop := Reader.moves_word hword
    have hopened := hadvance.trans hstop
    rw [bind_ok (position_bytes stop), bind_ok (Reader.get_eq stop)]
    refine bind_bytes (operands_bytes ih Reader.kept_prefixed rounds #[] hopened) fun fs last hfs => ?_
    obtain ⟨text, hlast⟩ := (Reader.kept_operands Reader.kept_prefixed rounds #[] hopened).moves hfs
    cases Connective.ofWord? name with
    | some op => rfl
    | none =>
      simp only
      split
      · have hmarks := Caret.marks_char hopen
        rw [← (hopened.trans hlast).line_eq] at hmarks
        exact fail_bytes hmarks
      · have hmarks := hstop.marks
        rw [← (hstop.trans hlast).line_eq] at hmarks
        exact fail_bytes hmarks

/-- **A clause is read by byte positions as it is with a caret**: no slice is missing, and what is read or
fails, and the position where that leaves the cursor, are the same. -/
theorem clause_bytes (limit : Nat) (caret : Caret) :
    clause limit caret.bytes = ofResult (Reader.clause limit caret) := by
  rw [clause, bind_ok (rest_bytes caret), Reader.clause]
  refine bind_bytes ?_ fun f last _ => ?_
  · rw [Reader.formula_eq]
    exact term_bytes prefixed_bytes caret
  · rw [bind_ok (skipBlanks_bytes last)]
    rfl

end ByteReader

end Consequence
