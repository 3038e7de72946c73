import Consequence.Text.Blank
import Consequence.Text.Bytes

/-!
# Lines of a text

A line ends at LF, CR LF or a lone CR; the last line may lack its terminator and is then not empty.
`flatMap_chars_lines` says that the lines with their terminators are the text. `rows` adds to each
line its byte offset and its number.
-/

set_option autoImplicit false

namespace Consequence

/-- What ends a line. -/
inductive Terminator where
  | lf
  | crlf
  | cr
  deriving DecidableEq, Repr

/-- The characters of a terminator. -/
def Terminator.chars : Terminator → List Char
  | lf => ['\n']
  | crlf => ['\r', '\n']
  | cr => ['\r']

/-- One line and what ends it. -/
structure Line where
  text : List Char
  terminator : Option Terminator
  deriving DecidableEq, Repr

namespace Line

/-- The characters of the line, its terminator included. -/
def chars (line : Line) : List Char :=
  line.text ++ (line.terminator.elim [] Terminator.chars)

/-- Puts one more character in front of lines that were split already. -/
def consChar (c : Char) (lines : List Line) : List Line :=
  if c = '\n' then ⟨[], some .lf⟩ :: lines
  else if c = '\r' then
    match lines with
    | ⟨[], some .lf⟩ :: others => ⟨[], some .crlf⟩ :: others
    | _ => ⟨[], some .cr⟩ :: lines
  else
    match lines with
    | [] => [⟨[c], none⟩]
    | line :: others => { line with text := c :: line.text } :: others

end Line

/-- The lines of a text. -/
def lines (text : List Char) : List Line :=
  text.foldr Line.consChar []

theorem Line.flatMap_chars_consChar (c : Char) (ls : List Line) :
    (Line.consChar c ls).flatMap Line.chars = c :: ls.flatMap Line.chars := by
  unfold Line.consChar
  split
  · next h => simp [Line.chars, Terminator.chars, h]
  · split
    · next h =>
      split
      · simp [Line.chars, Terminator.chars, h]
      · simp [Line.chars, Terminator.chars, h]
    · split
      · simp [Line.chars]
      · simp [Line.chars]

/-- The lines with their terminators are the text. -/
theorem flatMap_chars_lines (text : List Char) : (lines text).flatMap Line.chars = text := by
  induction text with
  | nil => rfl
  | cons c text ih => rw [lines, List.foldr_cons, Line.flatMap_chars_consChar, ← lines, ih]

/-- A line in its place: the offset of its first byte in the text and its number, counted from 1. -/
structure Row where
  offset : Nat
  number : Nat
  text : List Char
  deriving DecidableEq, Repr

/-- A row without a clause: a comment, or nothing but blanks. -/
def Row.isIdle (row : Row) : Bool :=
  row.text.head? == some '#' || row.text.all isBlank

/-- The rows collected so far, last first, and the place of the next one. -/
structure Numbering where
  done : List Row := []
  offset : Nat := 0
  number : Nat := 1

/-- Gives the next line its place. -/
def Numbering.add (state : Numbering) (line : Line) : Numbering where
  done := ⟨state.offset, state.number, line.text⟩ :: state.done
  offset := state.offset + byteLength line.chars
  number := state.number + 1

/-- The lines of a text, each in its place. -/
def rows (text : List Char) : List Row :=
  ((lines text).foldl Numbering.add {}).done.reverse

end Consequence
