import Mathlib
import Consequence.Clause
import Consequence.Proofs.PrefixRendering
import Consequence.Proofs.Progress
import Consequence.Proofs.Rows

/-!
# Listings

A listing is a source written line by line: clauses in prefix form, comments and blank lines, each
with a terminator of its own.

* `Listing.busy_chars`: the rows with a clause are those of the clauses.
* `Source.clause_of_text`: a row that is a prefix form between blanks is read as its formula, without a
  warning.
* `Source.clauses_listing`: a listing is read as its clauses, each with the span of its text.
-/

set_option autoImplicit false

namespace Consequence

/-- A line that is written into a source. -/
inductive Entry where
  | clause (f : Formula)
  | comment (text : List Char)
  | blank (text : List Char)

namespace Entry

/-- The characters of the line. -/
def text : Entry → List Char
  | clause f => f.prefixForm
  | comment text => '#' :: text
  | blank text => text

/-- The formula of a clause. -/
def formula? : Entry → Option Formula
  | clause f => some f
  | _ => none

/-- The symbols of clauses are words and their depth is within a limit; the other entries are single
lines, and blank ones are blank. -/
def Fits (depth : Nat) : Entry → Prop
  | clause f => f.Named ∧ f.depth ≤ depth
  | comment text => ∀ c ∈ text, isBreak c = false
  | blank text => ∀ c ∈ text, isBlank c = true ∧ isBreak c = false

end Entry

/-- Entries and what ends their lines. -/
abbrev Listing := List (Entry × Terminator)

namespace Listing

/-- The characters of all lines. -/
def chars (listing : Listing) : List Char :=
  listing.flatMap fun line => line.1.text ++ line.2.chars

/-- The formulas of the clauses. -/
def formulas (listing : Listing) : List Formula :=
  listing.filterMap fun line => line.1.formula?

/-- The formulas of the clauses and the bytes where they start, from a byte on. -/
def places : (offset : Nat) → Listing → List (Nat × Formula)
  | _, [] => []
  | offset, (entry, terminator) :: listing =>
    (entry.formula?.map (offset, ·)).toList ++
      places (offset + byteLength (entry.text ++ terminator.chars)) listing

theorem chars_cons (entry : Entry) (terminator : Terminator) (listing : Listing) :
    chars ((entry, terminator) :: listing) = entry.text ++ (terminator.chars ++ chars listing) := by
  simp [chars]

theorem map_places (offset : Nat) (listing : Listing) :
    (places offset listing).map (·.2) = listing.formulas := by
  induction listing generalizing offset with
  | nil => rfl
  | cons line listing ih =>
    obtain ⟨entry, terminator⟩ := line
    cases entry <;> simp [places, formulas, Entry.formula?, ih]

end Listing

/-! ## Rows -/

theorem isBreak_of_isWordChar {c : Char} (h : isWordChar c = true) : isBreak c = false := by
  rw [Bool.eq_false_iff]
  intro hbreak
  rcases isBreak_iff.1 hbreak with rfl | rfl
  · revert h
    decide
  · revert h
    decide

/-- Prefix forms are single lines. -/
theorem Formula.isBreak_prefixForm {f : Formula} (hnamed : f.Named) :
    ∀ c ∈ f.prefixForm, isBreak c = false := by
  induction f using Formula.induct with
  | atom name =>
    rw [prefixForm_atom]
    exact fun c hc => isBreak_of_isWordChar ((named_atom_iff.1 hnamed).2 c hc)
  | node op fs ih =>
    rw [named_node_iff] at hnamed
    rw [prefixForm_node]
    intro c hc
    simp only [List.mem_cons, List.mem_append, List.not_mem_nil, or_false, spaced,
      List.mem_flatMap] at hc
    rcases hc with rfl | hword | ⟨f, hf, rfl | hform⟩ | rfl
    · rfl
    · exact isBreak_of_isWordChar (op.isWordChar_word c hword)
    · rfl
    · exact ih f hf (hnamed f hf) c hform
    · rfl

/-- Up to its end the formula makes the line neither blank nor a comment. -/
theorem FirstFormula.isIdleText {f : Formula} {line kept unread : List Char}
    (h : FirstFormula f line kept unread) : isIdleText kept = false := by
  obtain ⟨lead, text, gap, rfl, hlead, hdenotes, -, -⟩ := h.kept_eq
  obtain ⟨c, chars, rfl, hblank, -, hcomment⟩ := hdenotes.eq_cons
  cases lead with
  | nil => simp [Consequence.isIdleText, hblank, hcomment]
  | cons d lead =>
    have hd : d ≠ '#' := by
      rintro rfl
      have hsign := hlead '#' List.mem_cons_self
      revert hsign
      decide
    simp [Consequence.isIdleText, hblank, hd]

theorem Entry.Fits.isBreak_text {depth : Nat} {entry : Entry} (h : entry.Fits depth) :
    ∀ c ∈ entry.text, isBreak c = false := by
  cases entry with
  | clause f => exact f.isBreak_prefixForm h.1
  | comment text => exact List.forall_mem_cons.2 ⟨rfl, h⟩
  | blank text => exact fun c hc => (h c hc).2

/-- Only clauses are not skipped. -/
theorem Entry.Fits.isIdleText_text {depth : Nat} {entry : Entry} (h : entry.Fits depth) :
    isIdleText entry.text = entry.formula?.isNone := by
  cases entry with
  | clause f =>
    have hfirst := @Formula.firstFormula_whole f [] [] (by simp) (by simp) h.1
    have hidle := hfirst.isIdleText
    rw [List.nil_append, List.append_nil] at hidle
    exact hidle
  | comment text => rfl
  | blank text =>
    have hall : text.all isBlank = true := List.all_eq_true.2 fun c hc => (h c hc).1
    simp [Entry.text, Entry.formula?, isIdleText, hall]

theorem Listing.busy_chars {depth : Nat} {listing : Listing}
    (h : ∀ line ∈ listing, line.1.Fits depth) (offset : Nat) :
    busy offset (lines listing.chars) =
      (listing.places offset).map fun place => (place.1, place.2.prefixForm) := by
  induction listing generalizing offset with
  | nil => rfl
  | cons line listing ih =>
    obtain ⟨entry, terminator⟩ := line
    have hentry : entry.Fits depth := h _ List.mem_cons_self
    rw [chars_cons, busy_line hentry.isBreak_text, hentry.isIdleText_text,
      ih fun line hline => h line (List.mem_cons_of_mem _ hline), places]
    cases entry with
    | clause f => rfl
    | comment text => rfl
    | blank text => rfl

theorem Listing.fits_of_mem_places {depth : Nat} {listing : Listing}
    (h : ∀ line ∈ listing, line.1.Fits depth) (offset : Nat) :
    ∀ place ∈ listing.places offset, place.2.Named ∧ place.2.depth ≤ depth := by
  induction listing generalizing offset with
  | nil => simp [places]
  | cons line listing ih =>
    obtain ⟨entry, terminator⟩ := line
    have hrest := ih (fun line hline => h line (List.mem_cons_of_mem _ hline))
    have hentry : entry.Fits depth := h _ List.mem_cons_self
    cases entry with
    | clause f => exact List.forall_mem_cons.2 ⟨hentry, hrest _⟩
    | comment text => exact hrest _
    | blank text => exact hrest _

/-- Where the listing has a clause, its text has the prefix form. -/
theorem Listing.extract_of_mem_places {listing : Listing} {offset : Nat} {f : Formula}
    (before : List Char) (h : (offset, f) ∈ listing.places (byteLength before)) :
    (String.ofList (before ++ listing.chars)).toByteArray.extract offset
      (offset + byteLength f.prefixForm) = f.prefixText.toByteArray := by
  induction listing generalizing before with
  | nil => cases h
  | cons line listing ih =>
    obtain ⟨entry, terminator⟩ := line
    rw [places, List.mem_append] at h
    rcases h with h | h
    · cases entry with
      | clause g =>
        obtain ⟨rfl, rfl⟩ : offset = byteLength before ∧ f = g := by
          simpa [Entry.formula?] using h
        rw [chars_cons]
        exact extract_toByteArray before f.prefixForm _
      | comment text => simp [Entry.formula?] at h
      | blank text => simp [Entry.formula?] at h
    · have hrest := ih (before ++ (entry.text ++ terminator.chars)) (by simpa using h)
      rw [chars_cons]
      simpa using hrest

/-! ## Reading -/

namespace Source

variable {limits : Limits}

/-- A row that is a prefix form between blanks is read as its formula, and nothing is left to warn
of. -/
theorem clause_of_text {source : Source} {row : Row} {f : Formula} {left right : List Char}
    (hleft : ∀ c ∈ left, isBlank c = true) (hright : ∀ c ∈ right, isBlank c = true) (hnamed : f.Named)
    (hdepth : f.depth ≤ limits.depth) (htext : row.text = left ++ f.prefixForm ++ right)
    (warnings : Array Warning) :
    source.clause limits row warnings = .ok ⟨f, source.id, row.wholeSpan⟩ warnings := by
  have hfirst := f.firstFormula_whole hleft hright hnamed
  rw [← htext] at hfirst
  simp only [clause, OpenLine.formula, OpenLine.clause_of_firstFormula hfirst hdepth]
  rfl

/-- The rows of prefix forms are read one after the other. -/
theorem mapM_clause (source : Source) {rows : List Row} {places : List (Nat × Formula)}
    (hrows : rows.map (fun row => (row.offset, row.text)) =
      places.map fun place => (place.1, place.2.prefixForm))
    (hforms : ∀ place ∈ places, place.2.Named ∧ place.2.depth ≤ limits.depth)
    (warnings : Array Warning) :
    ∃ cs, rows.mapM (source.clause limits) warnings = .ok cs warnings ∧
      cs.map (fun c => (c.span.start, c.formula)) = places ∧
      ∀ c ∈ cs, c.span.stop = c.span.start + byteLength c.formula.prefixForm := by
  induction rows generalizing places with
  | nil =>
    obtain rfl : places = [] := by simpa using hrows.symm
    exact ⟨[], rfl, rfl, by simp⟩
  | cons row rows ih =>
    cases places with
    | nil => simp at hrows
    | cons place places =>
      obtain ⟨⟨hoffset, htext⟩, hothers⟩ := by simpa using hrows
      obtain ⟨hnamed, hdepth⟩ := hforms place List.mem_cons_self
      obtain ⟨cs, hread, hplaces, hspans⟩ := ih hothers fun p hp => hforms p (List.mem_cons_of_mem _ hp)
      refine ⟨⟨place.2, source.id, row.wholeSpan⟩ :: cs, ?_, ?_, ?_⟩
      · have hfirst := @clause_of_text limits source row place.2 [] [] (by simp) (by simp) hnamed hdepth
          (by simpa using htext)
        rw [List.mapM_cons]
        simp only [bind, EStateM.bind, hfirst, hread]
        rfl
      · simp [Row.wholeSpan, Row.span, hoffset, hplaces]
      · refine List.forall_mem_cons.2 ⟨?_, hspans⟩
        simp [Row.wholeSpan, Row.span, htext]

/-- **A listing is read as it was written**: if its symbols are words, its depth is within the limit
and it is not too long, a source gives the formulas of its clauses in order, without a warning, and
each span names the bytes of the prefix form. -/
theorem clauses_listing {listing : Listing} (hfits : ∀ line ∈ listing, line.1.Fits limits.depth)
    (hsize : byteLength listing.chars ≤ limits.sourceBytes) (id : String) :
    ∃ cs, (Source.clauses ⟨id, String.ofList listing.chars⟩ limits).outcome = (.ok cs, #[]) ∧
      cs.map (·.formula) = listing.formulas ∧
      ∀ c ∈ cs, c.span.bytes (String.ofList listing.chars) = c.formula.prefixText.toByteArray := by
  have hrows := Listing.busy_chars hfits 0
  rw [← filter_numbered 0 1, ← rows_eq_numbered] at hrows
  obtain ⟨cs, hread, hplaces, hspans⟩ := mapM_clause ⟨id, String.ofList listing.chars⟩ hrows
    (Listing.fits_of_mem_places hfits 0) #[]
  refine ⟨cs, ?_, ?_, fun c hc => ?_⟩
  · have hwithin : ¬ limits.sourceBytes < (String.ofList listing.chars).utf8ByteSize := by
      rw [← byteLength_toList, String.toList_ofList]
      omega
    simp only [clauses, Reporting.outcome, hwithin, if_false, String.toList_ofList, hread]
  · rw [← Listing.map_places 0, ← hplaces, List.map_map]
    rfl
  · have hmem : (c.span.start, c.formula) ∈ listing.places (byteLength []) := by
      rw [byteLength_nil, ← hplaces]
      exact List.mem_map_of_mem hc
    rw [Span.bytes, hspans c hc]
    exact Listing.extract_of_mem_places [] hmem

/-- Three clauses between a comment and blank lines. The CR behind the first clause and the LF of the
empty line are one terminator. -/
def mixedListing : Listing := [
  (.comment " été".toList, .crlf),
  (.clause (.node .xor [.atom "été", .node .not [.atom "and"], .node .iff []]), .cr),
  (.blank [], .lf),
  (.blank "\t ".toList, .cr),
  (.clause (.atom "n_1"), .cr),
  (.clause (.atom "If"), .crlf)]

theorem clauses_listing_mixed :
    (∀ line ∈ mixedListing, line.1.Fits 2) ∧ byteLength mixedListing.chars ≤ 100 ∧
      String.ofList mixedListing.chars = "# été\r\n(xor été (not and) (iff))\r\n\t \rn_1\rIf\r\n" ∧
      ∃ cs, (Source.clauses ⟨"base", String.ofList mixedListing.chars⟩
          { sourceBytes := 100, depth := 2 }).outcome = (.ok cs, #[]) ∧
        cs.map (·.formula) =
          [.node .xor [.atom "été", .node .not [.atom "and"], .node .iff []], .atom "n_1", .atom "If"] ∧
        ∀ c ∈ cs, c.span.bytes (String.ofList mixedListing.chars) =
          c.formula.prefixText.toByteArray := by
  have hfits : ∀ line ∈ mixedListing, line.1.Fits 2 := by
    have hsymbols : IsSymbol "été" ∧ IsSymbol "and" ∧ IsSymbol "n_1" ∧ IsSymbol "If" := by
      decide +kernel
    have hblanks : isBlank '\t' = true ∧ isBlank ' ' = true := by decide
    simp [mixedListing, Entry.Fits, Formula.named_node_iff, Formula.named_atom_iff, Formula.depth,
      isBreak, hsymbols, hblanks]
  have hsize : byteLength mixedListing.chars ≤ 100 := by cbv
  refine ⟨hfits, hsize, by cbv, ?_⟩
  obtain ⟨cs, hread, hformulas, hspans⟩ :=
    @clauses_listing { sourceBytes := 100, depth := 2 } mixedListing hfits hsize "base"
  exact ⟨cs, hread, hformulas, hspans⟩

end Source

end Consequence
