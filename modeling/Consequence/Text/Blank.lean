/-!
# Blank characters

Blanks separate words and are skipped between them. They are the characters with the Unicode
property White_Space, line breaks included.
-/

set_option autoImplicit false

namespace Consequence

/-- A character with the Unicode property White_Space. -/
def isBlank (c : Char) : Bool :=
  let n := c.val
  n == 0x20 || (0x09 ≤ n && n ≤ 0x0D)
    || (0x85 ≤ n && (n == 0x85 || n == 0xA0 || n == 0x1680 || (0x2000 ≤ n && n ≤ 0x200A)
      || n == 0x2028 || n == 0x2029 || n == 0x202F || n == 0x205F || n == 0x3000))

end Consequence
