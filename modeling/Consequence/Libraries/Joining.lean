import Consequence.Libraries.Width

/-!
# The width of a text

A text takes the columns of its characters by edition 17, but letters that are written as one sign
take one column together:

* an Arabic lam and an alef behind it, also with marks between them,
* the two halves of a Lisu tone letter,
* Kirat Rai vowel signs that are equivalent to one sign: two signs E to the sign AI, the signs AA and
  E to the sign O, the signs AA and AI, or O and E, to the sign AU.

A text is measured from its end. A character joins with what the text behind it opens with, so one
`Opening` is all that has to be known of that text.
-/

set_option autoImplicit false

namespace Consequence

/-- The letters of the joining group Lam. -/
def lamRanges : Ranges := [
  (0x644, 0x644), (0x6B5, 0x6B8), (0x76A, 0x76A), (0x8A6, 0x8A6), (0x8C7, 0x8C7)]

/-- The letters of the joining group Alef. -/
def alefRanges : Ranges := [
  (0x622, 0x623), (0x625, 0x625), (0x627, 0x627), (0x671, 0x673), (0x675, 0x675),
  (0x773, 0x774), (0x870, 0x882)]

/-- The code points that take no column but part the letters on their sides. -/
def partingRanges : Ranges := [
  (0x605, 0x605), (0x890, 0x891), (0x8E2, 0x8E2), (0x9BE, 0x9BE), (0x9D7, 0x9D7), (0xB3E, 0xB3E),
  (0xB57, 0xB57), (0xBBE, 0xBBE), (0xBD7, 0xBD7), (0xCC0, 0xCC0), (0xCC2, 0xCC2), (0xCC7, 0xCC8),
  (0xCCA, 0xCCB), (0xCD5, 0xCD6), (0xD3E, 0xD3E), (0xD4E, 0xD4E), (0xD57, 0xD57), (0xDCF, 0xDCF),
  (0xDDF, 0xDDF), (0x1160, 0x11FF), (0x1715, 0x1715), (0x1734, 0x1734), (0x180E, 0x180E),
  (0x1B35, 0x1B35), (0x1B3B, 0x1B3B), (0x1B3D, 0x1B3D), (0x1B43, 0x1B44), (0x1BAA, 0x1BAA),
  (0x1BF2, 0x1BF3), (0x200C, 0x200D), (0x2065, 0x2069), (0x302E, 0x302F), (0x3164, 0x3164),
  (0xA8FA, 0xA8FA), (0xA953, 0xA953), (0xA9C0, 0xA9C0), (0xD7B0, 0xD7C6), (0xD7CB, 0xD7FB),
  (0xFFA0, 0xFFA0), (0xFFF0, 0xFFF8), (0x111C0, 0x111C0), (0x111C2, 0x111C3), (0x11235, 0x11235),
  (0x1133E, 0x1133E), (0x1134D, 0x1134D), (0x11357, 0x11357), (0x113B8, 0x113B8),
  (0x113C2, 0x113C2), (0x113C5, 0x113C5), (0x113C7, 0x113C9), (0x113CF, 0x113CF),
  (0x113D1, 0x113D1), (0x114B0, 0x114B0), (0x114BD, 0x114BD), (0x115AF, 0x115AF),
  (0x116B6, 0x116B6), (0x11930, 0x11930), (0x1193D, 0x1193D), (0x1193F, 0x1193F),
  (0x11941, 0x11941), (0x11A84, 0x11A89), (0x11D46, 0x11D46), (0x11F02, 0x11F02),
  (0x11F41, 0x11F41), (0x16FF0, 0x16FF1), (0x1D165, 0x1D166), (0x1D16D, 0x1D172),
  (0xE0000, 0xE0000), (0xE0002, 0xE001F), (0xE0080, 0xE00FF), (0xE01F0, 0xE0FFF)]

/-- A mark that letters join across. -/
def isJoiningMark (c : Char) : Bool :=
  Edition.v17.hides c.val && !partingRanges.covers c.val

/-- How a text opens, as far as a character in front of it can join with it. -/
inductive Opening where
  /-- With nothing that joins. -/
  | plain
  /-- With an alef, perhaps behind marks. -/
  | alef
  /-- With the second half of a Lisu tone letter. -/
  | tone
  /-- With a Kirat Rai vowel sign E that no other sign has joined. -/
  | vowelE
  /-- With a Kirat Rai vowel sign AI, or two signs E. -/
  | vowelAI
  deriving DecidableEq, Repr

namespace Opening

/-- How a text opens whose first character joins with nothing behind it. -/
def ofChar (c : Char) : Opening :=
  let n := c.val
  if alefRanges.covers n then .alef
  else if n = 0xA4FC ∨ n = 0xA4FD then .tone
  else if n = 0x16D67 then .vowelE
  else if n = 0x16D68 then .vowelAI
  else .plain

/-- What `c` adds to a text that opens so, where it joins with it: the columns, and how the text
opens after that. It is none where they do not join. -/
def join? (c : Char) : Opening → Option (Nat × Opening)
  | .plain => none
  | .alef =>
    if lamRanges.covers c.val then some (0, .plain)
    else if isJoiningMark c then some (0, .alef)
    else none
  | .tone => if 0xA4F8 ≤ c.val ∧ c.val ≤ 0xA4FB then some (0, .plain) else none
  | .vowelE =>
    if c.val = 0x16D63 ∨ c.val = 0x16D69 then some (0, .plain)
    else if c.val = 0x16D67 then some (0, .vowelAI)
    -- AI and E are three signs E, as E and AI are
    else if c.val = 0x16D68 then some (1, .vowelE)
    else none
  | .vowelAI => if c.val = 0x16D63 then some (0, .plain) else none

end Opening

/-- The columns of a text and how it opens. -/
structure Extent where
  width : Nat
  opening : Opening

/-- The extent of the text with one more character in front of it. -/
def Extent.cons (c : Char) (text : Extent) : Extent :=
  let (added, opening) := (text.opening.join? c).getD (charWidth .v17 c, .ofChar c)
  ⟨text.width + added, opening⟩

/-- The columns that `s` takes. -/
def textWidth (s : String) : Nat :=
  (s.toList.foldr Extent.cons ⟨0, .plain⟩).width

end Consequence
