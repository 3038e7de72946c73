import Consequence.Text.Span

/-!
# Rows of a text

* `rows_eq_numbered`: the rows of a text are its lines, numbered one after the other.
* `lines_append`: text without a line break stands in front of the first line of what follows.
* `busy_line`: a line in front of a text adds its own row to those with a clause and moves the others,
  whatever ends the line. So it does not matter that a lone CR and the LF of an empty line are one
  terminator.
* `Separated.busy_flatMap`: so the rows with a clause of any lines are those of the text that they make.
* `lines_append_lf`: behind a line feed the lines are those of the text that starts there.
* `filter_numbered_lf`: a line feed behind a text adds no row with a clause and changes none.
* `extract_toByteArray`: the bytes between two positions of a text.
-/

set_option autoImplicit false

namespace Consequence

/-! ## Numbering -/

/-- Lines as rows, from a byte and a number on. -/
def numbered : (offset number : Nat) → List Line → List Row
  | _, _, [] => []
  | offset, number, line :: ls =>
    ⟨offset, number, line.text⟩ :: numbered (offset + byteLength line.chars) (number + 1) ls

theorem done_foldl_add (ls : List Line) (state : Numbering) :
    (ls.foldl Numbering.add state).done =
      (numbered state.offset state.number ls).reverse ++ state.done := by
  induction ls generalizing state with
  | nil => rfl
  | cons line ls ih => simp [ih, Numbering.add, numbered]

theorem rows_eq_numbered (text : List Char) : rows text = numbered 0 1 (lines text) := by
  simp [rows, done_foldl_add]

theorem numbered_append (offset number : Nat) (ls others : List Line) :
    numbered offset number (ls ++ others) =
      numbered offset number ls ++
        numbered (offset + byteLength (ls.flatMap Line.chars)) (number + ls.length) others := by
  induction ls generalizing offset number with
  | nil => simp [numbered]
  | cons line ls ih => simp [numbered, ih, Nat.add_assoc, Nat.add_comm 1]

/-! ## Lines -/

/-- A character that ends a line. -/
def isBreak (c : Char) : Bool :=
  c == '\n' || c == '\r'

theorem isBreak_iff {c : Char} : isBreak c = true ↔ c = '\n' ∨ c = '\r' := by
  simp [isBreak]

theorem lines_lf (text : List Char) : lines ('\n' :: text) = ⟨[], some .lf⟩ :: lines text := rfl

/-- A CR in front of the LF of an empty line is one terminator with it. -/
theorem lines_cr (text : List Char) :
    (∃ others, lines text = ⟨[], some .lf⟩ :: others ∧
      lines ('\r' :: text) = ⟨[], some .crlf⟩ :: others) ∨
      lines ('\r' :: text) = ⟨[], some .cr⟩ :: lines text := by
  have hcons : lines ('\r' :: text) = Line.consChar '\r' (lines text) := rfl
  rw [hcons]
  unfold Line.consChar
  rw [if_neg (by decide), if_pos rfl]
  split
  · next others hlines => exact .inl ⟨others, hlines, rfl⟩
  · exact .inr rfl

theorem lines_crlf (text : List Char) :
    lines ('\r' :: '\n' :: text) = ⟨[], some .crlf⟩ :: lines text := rfl

theorem lines_cr_alone {text : List Char} (hhead : text.head? ≠ some '\n') :
    lines ('\r' :: text) = ⟨[], some .cr⟩ :: lines text := by
  refine (lines_cr text).resolve_left ?_
  rintro ⟨others, htext, -⟩
  refine hhead ?_
  rw [← flatMap_chars_lines text, htext]
  rfl

theorem lines_cons {c : Char} (hc : isBreak c = false) {text : List Char} {line : Line}
    {others : List Line} (h : lines text = line :: others) :
    lines (c :: text) = { line with text := c :: line.text } :: others := by
  have hcons : lines (c :: text) = Line.consChar c (lines text) := rfl
  rw [hcons, h]
  unfold Line.consChar
  rw [if_neg (by rintro rfl; cases hc), if_neg (by rintro rfl; cases hc)]

/-- In front of a line break there is an empty line. -/
theorem lines_break {c : Char} (h : isBreak c = true) (text : List Char) :
    ∃ terminator others, lines (c :: text) = ⟨[], some terminator⟩ :: others := by
  rcases isBreak_iff.1 h with rfl | rfl
  · exact ⟨.lf, _, lines_lf text⟩
  · rcases lines_cr text with ⟨others, -, hlines⟩ | hlines
    · exact ⟨.crlf, others, hlines⟩
    · exact ⟨.cr, _, hlines⟩

/-- Text without a line break belongs to the first line of what follows. -/
theorem lines_append {text rest : List Char} {line : Line} {others : List Line}
    (htext : ∀ c ∈ text, isBreak c = false) (hrest : lines rest = line :: others) :
    lines (text ++ rest) = { line with text := text ++ line.text } :: others := by
  induction text with
  | nil => exact hrest
  | cons c text ih =>
    exact lines_cons (htext c List.mem_cons_self)
      (ih fun d hd => htext d (List.mem_cons_of_mem _ hd))

/-! ## Line feeds -/

theorem Line.consChar_append (c : Char) {ls : List Line} (hne : ls ≠ []) (others : List Line) :
    consChar c (ls ++ others) = consChar c ls ++ others := by
  cases ls with
  | nil => exact absurd rfl hne
  | cons line ls =>
    unfold consChar
    split
    · rfl
    · split
      · rcases line with ⟨_ | ⟨d, text⟩, _ | _ | _ | _⟩ <;> rfl
      · rfl

theorem lines_ne_nil {text : List Char} (hne : text ≠ []) : lines text ≠ [] := by
  intro h
  have hchars := flatMap_chars_lines text
  rw [h] at hchars
  exact hne hchars.symm

/-- A line feed is the last character of its line, whatever stands in front of it. -/
theorem lines_append_lf (text rest : List Char) :
    lines (text ++ '\n' :: rest) = lines (text ++ ['\n']) ++ lines rest := by
  induction text with
  | nil => rfl
  | cons c text ih =>
    have hcons (others : List Char) :
        lines (c :: text ++ others) = Line.consChar c (lines (text ++ others)) := rfl
    rw [hcons, hcons, ih, Line.consChar_append c (lines_ne_nil (by simp))]

/-- The second lines are the first ones with a line feed behind them: it is an empty line of its own,
or ends the last line, or completes its terminator. -/
inductive Closes : List Line → List Line → Prop where
  | empty : Closes [] [⟨[], some .lf⟩]
  | unended {text : List Char} : text ≠ [] → Closes [⟨text, none⟩] [⟨text, some .lf⟩]
  | cr (text : List Char) : Closes [⟨text, some .cr⟩] [⟨text, some .crlf⟩]
  | cons (line : Line) {ls closed : List Line} : Closes ls closed → Closes (line :: ls) (line :: closed)

theorem Closes.consChar {ls closed : List Line} (h : Closes ls closed) (c : Char) :
    Closes (Line.consChar c ls) (Line.consChar c closed) := by
  unfold Line.consChar
  split
  · exact .cons _ h
  · split
    · -- a CR meets the LF of an empty line, or ends an empty line of its own
      cases h with
      | empty => exact .cr []
      | unended hne =>
        rename_i text
        obtain ⟨d, text, rfl⟩ := List.exists_cons_of_ne_nil hne
        exact .cons _ (.unended hne)
      | cr text => cases text <;> exact .cons _ (.cr _)
      | cons line h =>
        rcases line with ⟨_ | ⟨d, text⟩, _ | _ | _ | _⟩
        case nil.some.lf => exact .cons _ h
        all_goals exact .cons _ (.cons _ h)
    · cases h with
      | empty => exact .unended (by simp)
      | unended hne => exact .unended (by simp)
      | cr text => exact .cr _
      | cons line h => exact .cons _ h

theorem closes_lines (text : List Char) : Closes (lines text) (lines (text ++ ['\n'])) := by
  induction text with
  | nil => exact .empty
  | cons c text ih => exact ih.consChar c

theorem Closes.filter_numbered {ls closed : List Line} (h : Closes ls closed) (offset number : Nat) :
    (numbered offset number closed).filter (!·.isIdle) =
      (numbered offset number ls).filter (!·.isIdle) := by
  induction h generalizing offset number with
  | empty => rfl
  | unended => rfl
  | cr => rfl
  | cons line h ih => rw [numbered, numbered, List.filter_cons, List.filter_cons, ih]

theorem filter_numbered_lf (text : List Char) (offset number : Nat) :
    (numbered offset number (lines (text ++ ['\n']))).filter (!·.isIdle) =
      (numbered offset number (lines text)).filter (!·.isIdle) :=
  (closes_lines text).filter_numbered offset number

/-! ## Rows with a clause -/

/-- A line of this text holds no clause. -/
def isIdleText (text : List Char) : Bool :=
  text.head? == some '#' || text.all isBlank

/-- The offsets and the texts of the lines with a clause, from a byte on. -/
def busy : (offset : Nat) → List Line → List (Nat × List Char)
  | _, [] => []
  | offset, line :: ls =>
    (if isIdleText line.text then [] else [(offset, line.text)]) ++
      busy (offset + byteLength line.chars) ls

theorem filter_numbered (offset number : Nat) (ls : List Line) :
    ((numbered offset number ls).filter (!·.isIdle)).map (fun row => (row.offset, row.text)) =
      busy offset ls := by
  induction ls generalizing offset number with
  | nil => rfl
  | cons line ls ih =>
    have hidle : Row.isIdle ⟨offset, number, line.text⟩ = isIdleText line.text := rfl
    rw [numbered, busy, List.filter_cons, hidle]
    cases isIdleText line.text <;> simp [ih]

theorem busy_break {c : Char} (h : isBreak c = true) (offset : Nat) (text : List Char) :
    busy offset (lines (c :: text)) = busy (offset + 1) (lines text) := by
  rcases isBreak_iff.1 h with rfl | rfl
  · rw [lines_lf]
    rfl
  · rcases lines_cr text with ⟨others, htext, hlines⟩ | hlines
    · -- a CR and the LF of an empty line are one terminator, and the line is idle
      rw [hlines, htext]
      rfl
    · rw [hlines]
      rfl

theorem busy_append_break {text : List Char} (htext : ∀ c ∈ text, isBreak c = false) {c : Char}
    (hc : isBreak c = true) (offset : Nat) (rest : List Char) :
    busy offset (lines (text ++ c :: rest)) =
      (if isIdleText text then [] else [(offset, text)]) ++
        busy (offset + byteLength text + 1) (lines rest) := by
  obtain ⟨terminator, others, hlines⟩ := lines_break hc rest
  rw [← busy_break hc, hlines, lines_append htext hlines, busy, busy]
  simp [isIdleText, Line.chars, Nat.add_assoc]

theorem busy_line {text : List Char} (htext : ∀ c ∈ text, isBreak c = false) (offset : Nat)
    (terminator : Terminator) (rest : List Char) :
    busy offset (lines (text ++ (terminator.chars ++ rest))) =
      (if isIdleText text then [] else [(offset, text)]) ++
        busy (offset + byteLength (text ++ terminator.chars)) (lines rest) := by
  cases terminator with
  | lf =>
    rw [Terminator.chars, List.singleton_append, busy_append_break htext rfl, byteLength_append]
    rfl
  | cr =>
    rw [Terminator.chars, List.singleton_append, busy_append_break htext rfl, byteLength_append]
    rfl
  | crlf =>
    rw [Terminator.chars, List.cons_append, List.singleton_append, busy_append_break htext rfl,
      busy_break rfl, byteLength_append]
    rfl

theorem busy_append_lf (text : List Char) (offset : Nat) :
    busy offset (lines (text ++ ['\n'])) = busy offset (lines text) := by
  rw [← filter_numbered offset 1, ← filter_numbered offset 1, filter_numbered_lf]

/-- The last line adds its row too, if it has a clause. -/
theorem busy_last {text : List Char} (htext : ∀ c ∈ text, isBreak c = false) (offset : Nat) :
    busy offset (lines text) = if isIdleText text then [] else [(offset, text)] := by
  have hline := busy_line htext offset .lf []
  rw [Terminator.chars, List.append_nil, busy_append_lf] at hline
  rw [hline]
  exact List.append_nil _

/-- No line has a line break in it, and only the last one may lack its terminator. -/
inductive Separated : List Line → Prop
  | nil : Separated []
  | last {text : List Char} : (∀ c ∈ text, isBreak c = false) → Separated [⟨text, none⟩]
  | cons {text : List Char} {ls : List Line} (terminator : Terminator) :
      (∀ c ∈ text, isBreak c = false) → Separated ls → Separated (⟨text, some terminator⟩ :: ls)

theorem Separated.consChar {ls : List Line} (h : Separated ls) (c : Char) :
    Separated (Line.consChar c ls) := by
  unfold Line.consChar
  split
  · exact .cons .lf (by simp) h
  · split
    · split
      · cases h with
        | cons _ _ h => exact .cons .crlf (by simp) h
      · exact .cons .cr (by simp) h
    · next hlf hcr =>
      have hc : isBreak c = false := Bool.eq_false_iff.2 fun hc => (isBreak_iff.1 hc).elim hlf hcr
      cases h with
      | nil => exact .last (List.forall_mem_singleton.2 hc)
      | last htext => exact .last (List.forall_mem_cons.2 ⟨hc, htext⟩)
      | cons terminator htext h => exact .cons terminator (List.forall_mem_cons.2 ⟨hc, htext⟩) h

theorem separated_lines (text : List Char) : Separated (lines text) := by
  induction text with
  | nil => exact .nil
  | cons c text ih => exact ih.consChar c

/-- Where lines are put together again, the rows with a clause are those of these lines, though a CR that
ends a line may come to stand in front of the LF of an empty one. -/
theorem Separated.busy_flatMap {ls : List Line} (h : Separated ls) (offset : Nat) :
    busy offset (lines (ls.flatMap Line.chars)) = busy offset ls := by
  induction h generalizing offset with
  | nil => rfl
  | @last text htext =>
    have hchars : [(⟨text, none⟩ : Line)].flatMap Line.chars = text := by simp [Line.chars]
    rw [hchars, busy_last htext, busy]
    exact (List.append_nil _).symm
  | @cons text ls terminator htext _ ih =>
    have hchars : ((⟨text, some terminator⟩ : Line) :: ls).flatMap Line.chars =
        text ++ (terminator.chars ++ ls.flatMap Line.chars) := by simp [Line.chars]
    rw [hchars, busy_line htext, ih]
    rfl

/-! ## Bytes -/

theorem byteLength_eq_size (text : List Char) :
    byteLength text = (String.ofList text).toByteArray.size := by
  rw [String.size_toByteArray, ← byteLength_toList, String.toList_ofList]

/-- The bytes between two positions are those of the characters between them. -/
theorem extract_toByteArray (before text after : List Char) :
    (String.ofList (before ++ (text ++ after))).toByteArray.extract (byteLength before)
      (byteLength before + byteLength text) = (String.ofList text).toByteArray := by
  rw [String.ofList_append, String.ofList_append, String.toByteArray_append,
    String.toByteArray_append, byteLength_eq_size, byteLength_eq_size, ByteArray.extract_append,
    ByteArray.extract_append, ByteArray.extract_eq_empty_iff.2 (Nat.min_le_right _ _)]
  simp

/-- The bytes of a text that a span names. -/
def Span.bytes (span : Span) (text : String) : ByteArray :=
  text.toByteArray.extract span.start span.stop

end Consequence
