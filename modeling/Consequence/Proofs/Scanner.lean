import Consequence.Proofs.ByteCursor
import Consequence.Proofs.Iteration
import Consequence.Proofs.LineEnds

/-!
# Scanning bytes for lines

The rows of a text are made of its characters. A scanner for lines looks at the bytes of the text: from the
start of a line it goes to the next byte that is a LF or a CR, looks one byte further behind a CR, and gives
the slice in between; behind the last line break it gives what is left, if anything is.

* `toNat_of_mem_utf8EncodeChar`: a byte below 128 is a character of its own.
* `LineScanner.seek_line`, `LineScanner.seek_last`: the scanner finds the end of the line that it is in.
* `LineScanner.yields_iff`: asked until there is none, the scanner gives the rows, and every slice is there.
* `LineScanner.next_of_done`: behind the last line there is none, however often one asks.
-/

set_option autoImplicit false

namespace Consequence

/-- The byte where the next line starts, and whether the last one was given. -/
structure LineScanner where
  start : Nat := 0
  done : Bool := false

namespace LineScanner

/-- The first line break from a byte on: its first byte and the one behind it. A CR takes a LF right behind
it along. -/
def seek (bytes : Array UInt8) (i : Nat) : Option (Nat × Nat) :=
  if h : i < bytes.size then
    if bytes[i] = 10 then some (i, i + 1)
    else if bytes[i] = 13 then some (i, if bytes[i + 1]? = some 10 then i + 2 else i + 1)
    else seek bytes (i + 1)
  else none
termination_by bytes.size - i

/-- The next line, with the byte where it starts. -/
def next (text : String) (scanner : LineScanner) :
    Option (Nat × Option (List Char)) × LineScanner :=
  if scanner.done then (none, scanner)
  else
    let bytes := text.toByteArray.data
    match seek bytes scanner.start with
    | some (stop, behind) =>
      (some (scanner.start, slice? text.toList scanner.start stop), { scanner with start := behind })
    | none =>
      (if scanner.start < bytes.size then
        some (scanner.start, slice? text.toList scanner.start bytes.size) else none,
        { scanner with done := true })

/-- Behind the last line there is none. -/
theorem next_of_done {text : String} {scanner : LineScanner} (h : (scanner.next text).1 = none) :
    (scanner.next text).2.done = true := by
  unfold next at h ⊢
  cases hdone : scanner.done with
  | true => simpa using hdone
  | false =>
    simp only [hdone, Bool.false_eq_true, if_false] at h ⊢
    cases hseek : seek text.toByteArray.data scanner.start with
    | none => rfl
    | some found =>
      rw [hseek] at h
      cases h

/-! ## Bytes of characters -/

/-- The bytes of the characters. -/
def encoded (text : List Char) : List UInt8 :=
  text.flatMap String.utf8EncodeChar

theorem length_encoded (text : List Char) : (encoded text).length = byteLength text := by
  induction text with
  | nil => rfl
  | cons c text ih =>
    rw [encoded, List.flatMap_cons, List.length_append, String.length_utf8EncodeChar, byteLength_cons,
      ← ih, encoded]

theorem toList_bytes (text : String) : text.toByteArray.data.toList = encoded text.toList := by
  conv_lhs => rw [← String.ofList_toList (s := text)]
  rw [String.toByteArray_ofList, List.utf8Encode, List.toList_data_toByteArray]
  rfl

/-- A byte below 128 is a character of its own. -/
theorem toNat_of_mem_utf8EncodeChar {c : Char} {b : UInt8} (h : b ∈ String.utf8EncodeChar c)
    (hb : b.toNat < 128) : c.toNat = b.toNat := by
  have hc : c.toNat = c.val.toNat := rfl
  unfold String.utf8EncodeChar at h
  dsimp only at h
  -- one case for each number of bytes; only the first one has a byte below 128
  split at h
  · rw [List.mem_singleton] at h
    rw [h, UInt8.toNat_ofNat', hc]
    omega
  · split at h
    · simp only [List.mem_cons, List.not_mem_nil, or_false] at h
      rcases h with rfl | rfl <;> rw [UInt8.toNat_ofNat'] at hb <;> omega
    · split at h
      · simp only [List.mem_cons, List.not_mem_nil, or_false] at h
        rcases h with rfl | rfl | rfl <;> rw [UInt8.toNat_ofNat'] at hb <;> omega
      · simp only [List.mem_cons, List.not_mem_nil, or_false] at h
        rcases h with rfl | rfl | rfl | rfl <;> rw [UInt8.toNat_ofNat'] at hb <;> omega

/-- No byte of a character that is not a line break is a LF or a CR. -/
theorem ne_of_mem_encoded {text : List Char} (h : ∀ c ∈ text, isBreak c = false) {b : UInt8}
    (hb : b ∈ encoded text) : b ≠ 10 ∧ b ≠ 13 := by
  obtain ⟨c, hc, hmem⟩ := List.mem_flatMap.1 hb
  have hne : ¬ (c = '\n' ∨ c = '\r') := by
    rw [← isBreak_iff, h c hc]
    exact Bool.false_ne_true
  rw [not_or] at hne
  constructor
  · rintro rfl
    exact hne.1 (Char.ext (UInt32.toNat_inj.1 (toNat_of_mem_utf8EncodeChar hmem (by decide))))
  · rintro rfl
    exact hne.2 (Char.ext (UInt32.toNat_inj.1 (toNat_of_mem_utf8EncodeChar hmem (by decide))))

/-! ## Finding the end of a line -/

section
variable {bytes : Array UInt8} {lead part rest : List UInt8}

/-- Bytes that are no line break are passed. -/
theorem seek_append (hbytes : bytes.toList = lead ++ (part ++ rest))
    (hpart : ∀ b ∈ part, b ≠ 10 ∧ b ≠ 13) :
    seek bytes lead.length = seek bytes (lead ++ part).length := by
  induction part generalizing lead with
  | nil => rw [List.append_nil]
  | cons b part ih =>
    obtain ⟨hb, hpart⟩ := List.forall_mem_cons.1 hpart
    have hget : bytes[lead.length]? = some b := by
      rw [← Array.getElem?_toList, hbytes]
      simp
    obtain ⟨hsize, hb'⟩ := Array.getElem?_eq_some_iff.1 hget
    rw [seek, dif_pos hsize, hb', if_neg hb.1, if_neg hb.2]
    have hlead : bytes.toList = (lead ++ [b]) ++ (part ++ rest) := by simp [hbytes]
    simpa using ih hlead hpart

/-- A terminator ends the line and is passed whole. -/
theorem seek_terminator {terminator : Terminator}
    (hbytes : bytes.toList = lead ++ (encoded terminator.chars ++ rest))
    (hcr : terminator = .cr → rest.head? ≠ some 10) :
    seek bytes lead.length =
      some (lead.length, lead.length + (encoded terminator.chars).length) := by
  have hget (i : Nat) :
      bytes[lead.length + i]? = (encoded terminator.chars ++ rest)[i]? := by
    rw [← Array.getElem?_toList, hbytes, List.getElem?_append_right (Nat.le_add_right _ _),
      Nat.add_sub_cancel_left]
  have hfirst := hget 0
  have hsecond := hget 1
  cases terminator with
  | lf =>
    have hbyte : bytes[lead.length]? = some 10 := hfirst
    obtain ⟨hsize, hb⟩ := Array.getElem?_eq_some_iff.1 hbyte
    rw [seek, dif_pos hsize, if_pos hb]
    rfl
  | crlf =>
    have hbyte : bytes[lead.length]? = some 13 := hfirst
    have hlf : bytes[lead.length + 1]? = some 10 := hsecond
    obtain ⟨hsize, hb⟩ := Array.getElem?_eq_some_iff.1 hbyte
    rw [seek, dif_pos hsize, if_neg (by rw [hb]; decide), if_pos hb, if_pos hlf]
    rfl
  | cr =>
    have hbyte : bytes[lead.length]? = some 13 := hfirst
    have hlf : bytes[lead.length + 1]? = rest[0]? := hsecond
    obtain ⟨hsize, hb⟩ := Array.getElem?_eq_some_iff.1 hbyte
    rw [← List.head?_eq_getElem?] at hlf
    rw [seek, dif_pos hsize, if_neg (by rw [hb]; decide), if_pos hb, hlf, if_neg (hcr rfl)]
    rfl

end

/-- Only a LF starts with the byte of a LF. -/
theorem head?_encoded_ne {rest : List Char} (h : rest.head? ≠ some '\n') :
    (encoded rest).head? ≠ some 10 := by
  cases rest with
  | nil => exact nofun
  | cons c rest =>
    intro hhead
    have hmem : (10 : UInt8) ∈ String.utf8EncodeChar c := by
      rw [encoded, List.flatMap_cons, List.head?_append] at hhead
      rcases hfirst : (String.utf8EncodeChar c).head? with _ | b
      · simp at hfirst
      · rw [hfirst, Option.some_or] at hhead
        obtain rfl := Option.some.inj hhead
        exact List.mem_of_head? hfirst
    have hc : c = '\n' :=
      Char.ext (UInt32.toNat_inj.1 (toNat_of_mem_utf8EncodeChar hmem (by decide)))
    exact h (by rw [hc]; rfl)

/-! ## Calls -/

section
variable {text : String} {before line rest : List Char}

theorem next_line {terminator : Terminator} (hline : ∀ c ∈ line, isBreak c = false)
    (hcr : terminator = .cr → rest.head? ≠ some '\n')
    (htext : text.toList = before ++ (line ++ (terminator.chars ++ rest))) :
    next text { start := byteLength before } =
      (some (byteLength before, some line),
        { start := byteLength before + byteLength (line ++ terminator.chars) }) := by
  have hbytes : text.toByteArray.data.toList =
      encoded before ++ (encoded line ++ (encoded terminator.chars ++ encoded rest)) := by
    simp [toList_bytes, htext, encoded]
  have hseek : seek text.toByteArray.data (byteLength before) =
      some (byteLength (before ++ line),
        byteLength before + byteLength (line ++ terminator.chars)) := by
    rw [← length_encoded before, seek_append hbytes fun b hb => ne_of_mem_encoded hline hb,
      seek_terminator (by rw [hbytes, List.append_assoc]) fun h => head?_encoded_ne (hcr h)]
    simp [length_encoded, Nat.add_assoc]
  have hslice : slice? text.toList (byteLength before) (byteLength (before ++ line)) = some line :=
    slice?_eq_some_iff.2 ⟨before, terminator.chars ++ rest, htext, rfl, rfl⟩
  simp only [next, Bool.false_eq_true, if_false, hseek, hslice]

/-- Without a line break in it, what is left is the last line, if it is not empty. -/
theorem next_last (hrest : ∀ c ∈ rest, isBreak c = false) (htext : text.toList = before ++ rest) :
    next text { start := byteLength before } =
      (if rest = [] then none else some (byteLength before, some rest),
        { start := byteLength before, done := true }) := by
  have hbytes : text.toByteArray.data.toList = encoded before ++ (encoded rest ++ []) := by
    simp [toList_bytes, htext, encoded]
  have hsize : text.toByteArray.data.size = byteLength (before ++ rest) := by
    rw [← Array.length_toList, toList_bytes, length_encoded, htext]
  have hseek : seek text.toByteArray.data (byteLength before) = none := by
    rw [← length_encoded before, seek_append hbytes fun b hb => ne_of_mem_encoded hrest hb, seek,
      dif_neg (by simp [hsize, length_encoded])]
  have hslice : slice? text.toList (byteLength before) (byteLength (before ++ rest)) = some rest :=
    slice?_eq_some_iff.2 ⟨before, [], by rw [htext, List.append_nil], rfl, rfl⟩
  have hlast : byteLength before < byteLength (before ++ rest) ↔ ¬ rest = [] := by
    cases rest with
    | nil => simp
    | cons c rest =>
      have := c.utf8Size_pos
      simp
      omega
  simp only [next, Bool.false_eq_true, if_false, hseek, hsize, hslice, hlast, ite_not]

/-- Asked behind a text in front of it, the scanner gives the rows of the rest. -/
theorem yields_of_parted {offset number : Nat} {rs : List Row} (h : Parted offset number rest rs)
    (htext : text.toList = before ++ rest) (hoffset : offset = byteLength before) :
    Yields (next text) { start := offset }
      (rs.map fun row => (row.offset, some row.text)) := by
  induction h generalizing before with
  | done =>
    refine .done ?_
    rw [hoffset, next_last (List.forall_mem_nil _) htext, if_pos rfl]
  | last _ _ hrest hne =>
    subst hoffset
    refine .item (by rw [next_last hrest htext, if_neg hne]) (.done ?_)
    rw [next_last hrest htext]
    rfl
  | @line _ _ line rest _ terminator hline hcr _ ih =>
    subst hoffset
    have hnext := next_line hline hcr htext
    have hbehind : text.toList = (before ++ (line ++ terminator.chars)) ++ rest := by simp [htext]
    refine .item (by rw [hnext]) ?_
    rw [hnext]
    exact ih hbehind (by simp)

end

/-- **A scanner of bytes gives the rows**: asked from the start of a text until there is none, it gives the
rows with the bytes where they start, and both ends of each one stand between characters. -/
theorem yields_iff (text : String) (items : List (Nat × Option (List Char))) :
    Yields (next text) {} items ↔
      items = (rows text.toList).map fun row => (row.offset, some row.text) := by
  have hparted : Parted 0 1 text.toList (rows text.toList) := by
    rw [rows_eq_numbered]
    exact parted_numbered 0 1 text.toList
  have htext : text.toList = [] ++ text.toList := rfl
  exact Yields.iff_eq (yields_of_parted hparted htext rfl)

end LineScanner

end Consequence
