import Consequence.Libraries.Width
import Consequence.Report.ErrorReport

/-!
# Drawing error reports

A label is drawn under the line that it points to: a bar under the labelled stretch with a mark in its
middle, and a pointer from the mark to the message. The bounds of a label count as positions of
characters in the source. Where they lie beyond its end no line is shown, and where the stretch ends one
place behind the end an empty row stands for the line.
-/

set_option autoImplicit false

namespace Consequence

namespace Snippet

/-! ## Lines on display -/

/-- A character that ends a line on display. -/
def isLineBreak (c : Char) : Bool :=
  let n := c.val
  (0x0A ≤ n && n ≤ 0x0D) || n == 0x85 || n == 0x2028 || n == 0x2029

/-- Puts one more character in front of lines that were split already. CR LF is one line break. -/
def consChar (c : Char) (lines : List (List Char)) : List (List Char) :=
  if isLineBreak c then
    match lines with
    | ['\n'] :: others => if c = '\r' then ['\r', '\n'] :: others else [c] :: lines
    | _ => [c] :: lines
  else
    match lines with
    | [] => [[c]]
    | line :: others => (c :: line) :: others

/-- The lines of a text with their line breaks. An empty text is one empty line. -/
def linesOf (text : List Char) : List (List Char) :=
  match text.foldr consChar [] with
  | [] => [[]]
  | lines => lines

/-- A line on display: its number, the position of its first character and its characters. -/
structure ShownLine where
  number : Nat
  start : Nat
  chars : List Char

/-- The line that holds a position, among the lines from `number` on, which starts at `start`. The
end of the text belongs to its last line. -/
def lineAt (position : Nat) : (number start : Nat) → List (List Char) → Option ShownLine
  | _, _, [] => none
  | number, start, line :: others =>
    let stop := start + line.length
    if position < stop || (others.isEmpty && position == stop) then some ⟨number, start, line⟩
    else lineAt position (number + 1) stop others

/-- The position behind the line and its line break. -/
def ShownLine.stop (line : ShownLine) : Nat :=
  line.start + line.chars.length

/-- The line without the blanks at its end. -/
def ShownLine.trimmed (line : ShownLine) : Array Char :=
  (line.chars.reverse.dropWhile isBlank).reverse.toArray

/-! ## Columns -/

/-- How many columns the character in place `i` of a line takes. A tab reaches to the next multiple
of four; places behind the end take one column. -/
def columns (chars : Array Char) (i : Nat) : Nat :=
  match chars[i]? with
  | none => 1
  | some c =>
    if c = '\t' then 4 - i % 4
    else if isBlank c then 1
    else charWidth .v15 c

/-- The line as it is shown: blanks as spaces, tabs as several. -/
def shown (chars : Array Char) : String :=
  (List.range chars.size).foldl (fun s i =>
    let c := chars.getD i ' '
    if isBlank c then s ++ "".pushn ' ' (columns chars i) else s.push c) ""

/-- One row under a line. A place that takes several columns starts with its own character, and is
filled up with another; a place that takes none is left out. -/
def rowUnder (chars : Array Char) (places : Nat) (cell : Nat → Char × Char) : String :=
  (List.range places).foldl (fun s i =>
    match columns chars i with
    | 0 => s
    | more + 1 => (s.push (cell i).1).pushn (cell i).2 more) ""

/-- The bar under the places from `first` to before `last`, with a mark at `middle`. -/
def bar (chars : Array Char) (first last middle : Nat) : String :=
  rowUnder chars (last + 2) fun i =>
    if i = middle then ('┬', '─')
    else if first ≤ i ∧ i < last then ('─', '─')
    else (' ', ' ')

/-- The pointer from the mark at `middle` to the right. -/
def pointer (chars : Array Char) (last middle : Nat) : String :=
  rowUnder chars (last + 2) fun i =>
    if i < middle then (' ', ' ')
    else if i = middle then ('╰', '─')
    else ('─', '─')

/-! ## Reports -/

/-- The snippet of a line that a report points to, headed by the place of the report. A label that goes
on behind the line leaves it out. -/
def ofLine (line : ShownLine) (report : ErrorReport) : String :=
  let label := report.label
  let chars := line.trimmed
  let number := toString line.number
  let indent := "".pushn ' ' (number.length + 2)
  let margin := indent ++ "│"
  let first := label.start - line.start
  let last := label.stop - line.start
  let middle := (label.start + label.stop) / 2 - line.start
  let help := report.help?.elim [] fun s => [margin ++ " ", margin ++ " Help: " ++ s]
  let body :=
    if line.stop < label.stop then [margin ++ " "]
    else [
      s!" {number} │ {shown chars}",
      s!"{margin} {bar chars first last middle}",
      s!"{margin} {pointer chars last middle} {label.message}"]
  let rows := [s!"{indent}╭─[{report.sourceId}:{number}:{report.offset - line.start + 1}]", margin] ++ body
    ++ help ++ ["".pushn '─' (number.length + 2) ++ "╯"]
  String.join (rows.map (· ++ "\n"))

/-- The snippet of a report, empty if its label begins or ends beyond the end of the text. -/
def ofText (text : List Char) (report : ErrorReport) : String :=
  if text.length < report.label.stop - 1 then ""
  else
    match lineAt report.label.start 1 0 (linesOf text) with
    | none => ""
    | some line => ofLine line report

end Snippet

/-- Draws a report without colours. -/
def ErrorReport.draw (report : ErrorReport) (source : Source) : Option String :=
  let severity := match report.severity with
    | .error => "Error"
  some (s!"{severity}: {report.message}\n"
    ++ Snippet.ofText source.text.toList report)

end Consequence
