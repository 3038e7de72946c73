/-!
# Positions in bytes and in characters

Positions count the bytes of the UTF-8 encoding and columns count characters.
`byteLength_toList` says that these are the bytes of the string, and `charsBefore_byteLength`
converts a byte position at a character boundary into a column.
-/

set_option autoImplicit false

namespace Consequence

/-- The bytes that `text` takes in UTF-8. -/
def byteLength (text : List Char) : Nat :=
  text.foldl (fun n c => n + c.utf8Size) 0

theorem foldl_utf8Size (n : Nat) (text : List Char) :
    text.foldl (fun n c => n + c.utf8Size) n = n + byteLength text := by
  unfold byteLength
  induction text generalizing n with
  | nil => rfl
  | cons c text ih => rw [List.foldl_cons, ih, List.foldl_cons, ih (0 + c.utf8Size)]; omega

@[simp] theorem byteLength_nil : byteLength [] = 0 := rfl

@[simp] theorem byteLength_cons (c : Char) (text : List Char) :
    byteLength (c :: text) = c.utf8Size + byteLength text := by
  rw [byteLength, List.foldl_cons, foldl_utf8Size]; omega

@[simp] theorem byteLength_append (s t : List Char) :
    byteLength (s ++ t) = byteLength s + byteLength t := by
  induction s with
  | nil => simp
  | cons c s ih => simp [ih, Nat.add_assoc]

@[simp] theorem byteLength_reverse (s : List Char) : byteLength s.reverse = byteLength s := by
  induction s with
  | nil => rfl
  | cons c s ih => simp [ih, Nat.add_comm]

/-- The bytes of a string are those of its characters. -/
theorem byteLength_toList (s : String) : byteLength s.toList = s.utf8ByteSize := by
  suffices h : ∀ l : List Char, byteLength l = (String.ofList l).utf8ByteSize by
    rw [h, String.ofList_toList]
  intro l
  induction l with
  | nil => simp
  | cons c l ih =>
    have hsplit : String.ofList (c :: l) = String.singleton c ++ String.ofList l := by
      rw [String.singleton_eq_ofList, ← String.ofList_append]; rfl
    rw [byteLength_cons, ih, hsplit, String.utf8ByteSize_append, String.utf8ByteSize_singleton]

/-- How many characters of `text` begin before byte `bytes`, added to `count`. -/
def countBefore (bytes count : Nat) : List Char → Nat
  | [] => count
  | c :: text => if bytes = 0 then count else countBefore (bytes - c.utf8Size) (count + 1) text

/-- How many characters of `text` begin before byte `bytes`. -/
def charsBefore (text : List Char) (bytes : Nat) : Nat :=
  countBefore bytes 0 text

theorem countBefore_byteLength (count : Nat) (s t : List Char) :
    countBefore (byteLength s) count (s ++ t) = count + s.length := by
  induction s generalizing count with
  | nil => cases t <;> simp [countBefore]
  | cons c s ih =>
    have hc : 0 < c.utf8Size := c.utf8Size_pos
    have hne : byteLength (c :: s) ≠ 0 := by rw [byteLength_cons]; omega
    rw [List.cons_append, countBefore, if_neg hne, byteLength_cons, Nat.add_sub_cancel_left, ih,
      List.length_cons]
    omega

/-- At the end of a leading part `s`, the characters before it are those of `s`. -/
theorem charsBefore_byteLength (s t : List Char) :
    charsBefore (s ++ t) (byteLength s) = s.length := by
  rw [charsBefore, countBefore_byteLength, Nat.zero_add]

end Consequence
