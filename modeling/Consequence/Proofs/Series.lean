import Mathlib
import Consequence.Proofs.PrefixRendering
import Consequence.Proofs.Progress

/-!
# Several clauses in one line

A series is a line of prefix forms with blanks between them. Reading clause after clause gives its
formulas one by one.

* `OpenLine.calls`: some readings of one line, each from where the one before it stopped.
* `OpenLine.clause_series`: one reading gives the first formula and stops in front of the next one.
* `OpenLine.calls_series`: as many readings as there are formulas give them all, and each but the last
  one warns of the next formula.
-/

set_option autoImplicit false

namespace Consequence

/-- Formulas in a line, each with the blanks behind it. -/
abbrev Series := List (Formula × List Char)

namespace Series

variable {depth : Nat} {series : Series} {item : Formula × List Char}

/-- The prefix forms with the blanks behind them. -/
def chars (series : Series) : List Char :=
  series.flatMap fun item => item.1.prefixForm ++ item.2

/-- The symbols are words, the depth is within a limit and there are blanks between the formulas. -/
structure Fits (depth : Nat) (series : Series) : Prop where
  named : ∀ item ∈ series, item.1.Named
  depth_le : ∀ item ∈ series, item.1.depth ≤ depth
  blank : ∀ item ∈ series, ∀ c ∈ item.2, isBlank c = true
  /-- Only the last formula may have no blank behind it. -/
  parted : ∀ item ∈ series.dropLast, item.2 ≠ []

theorem chars_cons (item : Formula × List Char) (series : Series) :
    chars (item :: series) = item.1.prefixForm ++ (item.2 ++ chars series) := by
  simp [chars]

theorem Fits.tail (h : Fits depth (item :: series)) : Fits depth series where
  named other hother := h.named other (List.mem_cons_of_mem _ hother)
  depth_le other hother := h.depth_le other (List.mem_cons_of_mem _ hother)
  blank other hother := h.blank other (List.mem_cons_of_mem _ hother)
  parted other hother := h.parted other (by
    cases series with
    | nil => cases hother
    | cons next series => exact List.mem_cons_of_mem _ hother)

/-- A series starts with a character that is not a blank. -/
theorem Fits.head?_chars (h : Fits depth series) : ∀ c ∈ series.chars.head?, isBlank c = false := by
  cases series with
  | nil => simp [chars]
  | cons item series =>
    obtain ⟨c, text, hform, hblank, -, -⟩ :=
      Formula.head_prefixForm (h.named item List.mem_cons_self)
    rw [chars_cons, hform]
    simpa using hblank

/-- What stands behind the first formula ends a word. -/
theorem Fits.endsWord (h : Fits depth (item :: series)) : EndsWord (item.2 ++ series.chars) := by
  cases hgap : item.2 with
  | cons c gap => exact endsWord_blank (h.blank item List.mem_cons_self c (by simp [hgap])) _
  | nil =>
    cases series with
    | nil => exact endsWord_nil
    | cons next series => exact absurd hgap (h.parted item List.mem_cons_self)

end Series

namespace OpenLine

variable {line : OpenLine} {limits : Limits} {series : Series} {item next : Formula × List Char}
  {lead : List Char}

/-- Reads some clauses from one line, each from where the reading before it stopped. -/
def calls (limits : Limits) : Nat → OpenLine → List ClauseRead
  | 0, _ => []
  | n + 1, line => line.clause limits :: calls limits n (line.clause limits).line

/-- One reading gives the first formula and stops in front of the others, of which it warns. -/
theorem clause_series (hfits : Series.Fits limits.depth (item :: series))
    (hlead : ∀ c ∈ lead, isBlank c = true)
    (hline : line.caret.ahead = lead ++ Series.chars (item :: series)) :
    (line.clause limits).result = .ok item.1 ∧
      (line.clause limits).line.caret.ahead = series.chars ∧
      (line.clause limits).warning? = (line.clause limits).line.unread? := by
  have hnamed := hfits.named item List.mem_cons_self
  have hfirst := item.1.firstFormula_prefixForm hlead (hfits.blank item List.mem_cons_self) hnamed
    hfits.endsWord hfits.tail.head?_chars
  have hahead : line.caret.ahead = lead ++ item.1.prefixForm ++ item.2 ++ series.chars := by
    rw [hline, Series.chars_cons, List.append_assoc, List.append_assoc]
  rw [← hahead] at hfirst
  have hread := (Reader.clause_eq_ok_iff_firstFormula hnamed.ne_empty line.caret.passed).2
    ⟨hfits.depth_le item List.mem_cons_self, _, _, hfirst, rfl⟩
  rw [clause_of_ok hread]
  exact ⟨rfl, rfl, rfl⟩

theorem unread?_of_nil (h : line.caret.ahead = []) : line.unread? = none := by
  simp [unread?, h]

/-- The warning holds what is ahead, which starts with the next formula. -/
theorem unread?_of_cons (hfits : Series.Fits limits.depth (next :: series))
    (h : line.caret.ahead = Series.chars (next :: series)) :
    ∃ w, line.unread? = some w ∧ next.1.prefixForm <+: w.ignored.toList := by
  obtain ⟨c, text, hform, -, -, -⟩ := Formula.head_prefixForm (hfits.named next List.mem_cons_self)
  refine ⟨⟨line.row.number, line.caret.passed.length + 1, String.ofList line.caret.ahead⟩, ?_, ?_⟩
  · simp [unread?, h, Series.chars_cons, hform]
  · rw [String.toList_ofList, h, Series.chars_cons]
    exact List.prefix_append _ _

/-- **A line is read clause by clause**: if formulas within the depth limit, whose symbols are words,
stand in a line with blanks between them, and perhaps around them, then as many readings give them in
order. The last one reaches the end of the line and does not warn. Each of the others gives one warning,
whose text starts with the prefix form of the next formula. -/
theorem calls_series (hfits : series.Fits limits.depth) (hlead : ∀ c ∈ lead, isBlank c = true)
    (hline : line.caret.ahead = lead ++ series.chars) :
    (line.calls limits series.length).map (·.result) = series.map (fun item => .ok item.1) ∧
    (∀ read ∈ (line.calls limits series.length).getLast?,
      read.line.caret.ahead = [] ∧ read.warning? = none) ∧
    ∀ i read next, (line.calls limits series.length)[i]? = some read → series[i + 1]? = some next →
      ∃ w, read.warning? = some w ∧ next.1.prefixForm <+: w.ignored.toList := by
  induction series generalizing line lead with
  | nil => simp [calls]
  | cons item series ih =>
    obtain ⟨hresult, hahead, hwarning⟩ := clause_series hfits hlead hline
    obtain ⟨hresults, hlast, hwarnings⟩ := @ih (line.clause limits).line [] hfits.tail (by simp) hahead
    rw [List.length_cons, calls]
    refine ⟨by rw [List.map_cons, List.map_cons, hresult, hresults], ?_, ?_⟩
    · cases series with
      | nil =>
        intro read hread
        obtain rfl : line.clause limits = read := by simpa [calls] using hread
        rw [hwarning]
        exact ⟨hahead, unread?_of_nil hahead⟩
      | cons next series =>
        rw [List.length_cons, calls] at hlast ⊢
        rw [List.getLast?_cons_cons]
        exact hlast
    · rintro (_ | i) read other hread hother
      · cases series with
        | nil => simp at hother
        | cons next series =>
          obtain rfl : line.clause limits = read := by simpa using hread
          obtain rfl : next = other := by simpa using hother
          rw [hwarning]
          exact unread?_of_cons hfits.tail hahead
      · exact hwarnings i read other (by simpa using hread) (by simpa using hother)

/-- Three formulas with a tab, two blanks and nothing behind them. -/
def threeClauses : Series :=
  [(.atom "größe", ['\t']), (.node .not [.atom "b"], [' ', ' ']), (.atom "c", [])]

theorem calls_series_threeClauses :
    threeClauses.Fits 1 ∧ (∀ c ∈ [' '], isBlank c = true) ∧
      (ofText "base" " größe\t(not b)  c" 0 1).caret.ahead = [' '] ++ threeClauses.chars ∧
      (((ofText "base" " größe\t(not b)  c" 0 1).calls { depth := 1 } 3).map (·.result) =
          [.ok (.atom "größe"), .ok (.node .not [.atom "b"]), .ok (.atom "c")] ∧
        (∀ read ∈ ((ofText "base" " größe\t(not b)  c" 0 1).calls { depth := 1 } 3).getLast?,
          read.line.caret.ahead = [] ∧ read.warning? = none) ∧
        ∀ i read next, ((ofText "base" " größe\t(not b)  c" 0 1).calls { depth := 1 } 3)[i]? = some read →
          threeClauses[i + 1]? = some next →
          ∃ w, read.warning? = some w ∧ next.1.prefixForm <+: w.ignored.toList) := by
  have hfits : threeClauses.Fits 1 := by
    have hsymbols : IsSymbol "größe" ∧ IsSymbol "b" ∧ IsSymbol "c" := by decide +kernel
    have hblanks : isBlank '\t' = true ∧ isBlank ' ' = true := by decide
    constructor <;> simp [threeClauses, Formula.named_node_iff, Formula.named_atom_iff, Formula.depth,
      hsymbols, hblanks]
  have hlead : ∀ c ∈ [' '], isBlank c = true := List.forall_mem_singleton.2 (by decide)
  have hline : (ofText "base" " größe\t(not b)  c" 0 1).caret.ahead = [' '] ++ threeClauses.chars := by
    cbv
  exact ⟨hfits, hlead, hline, @calls_series _ { depth := 1 } threeClauses _ hfits hlead hline⟩

end OpenLine

end Consequence
