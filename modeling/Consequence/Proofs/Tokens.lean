import Mathlib.Data.List.Forall2
import Consequence.Proofs.NormalForm

/-!
# Tokens

The tokens of a text are its parentheses and its runs of symbol characters. The pieces of a formula
are what its canonical form is made of.

* `tokens_blank`, `tokens_opening`, `tokens_closing`, `tokens_word`: a text from left to right.
* `Formula.tokens_canonicalForm`: the tokens of a canonical form are those of its pieces.
-/

set_option autoImplicit false

namespace Consequence

/-! ## Texts -/

/-- A parenthesis or a run of symbol characters. -/
inductive Token where
  | opening
  | closing
  | word (name : String)
  deriving DecidableEq, Repr

/-- Two tokens are the same up to the case of ASCII letters. -/
def Token.sameUpToCase : Token → Token → Bool
  | word v, word w => sameWord v w
  | s, t => s == t

/-- The tokens of a text. Other characters only divide words. -/
def tokens : List Char → List Token
  | [] => []
  | c :: text =>
    if isWordChar c then
      .word (String.ofList (c :: text.takeWhile isWordChar)) :: tokens (text.dropWhile isWordChar)
    else if c = '(' then .opening :: tokens text
    else if c = ')' then .closing :: tokens text
    else tokens text
termination_by text => text.length
decreasing_by
  · exact Nat.lt_succ_of_le (List.dropWhile_sublist _).length_le
  all_goals exact Nat.lt_succ_self _

@[simp] theorem tokens_nil : tokens [] = [] := by
  rw [tokens]

@[simp] theorem tokens_opening (text : List Char) : tokens ('(' :: text) = .opening :: tokens text := by
  rw [tokens, if_neg (by decide), if_pos rfl]

@[simp] theorem tokens_closing (text : List Char) : tokens (')' :: text) = .closing :: tokens text := by
  rw [tokens, if_neg (by decide), if_neg (by decide), if_pos rfl]

theorem tokens_blank {c : Char} (hc : isBlank c = true) (text : List Char) :
    tokens (c :: text) = tokens text := by
  have hword : ¬ isWordChar c = true := by simp [isWordChar_of_isBlank hc]
  rw [tokens, if_neg hword, if_neg (by rintro rfl; cases hc), if_neg (by rintro rfl; cases hc)]

theorem tokens_dropWhile_isBlank (text : List Char) :
    tokens (text.dropWhile isBlank) = tokens text := by
  induction text with
  | nil => rfl
  | cons c text ih =>
    cases hc : isBlank c with
    | false => rw [List.dropWhile_cons_of_neg (by simp [hc])]
    | true => rw [List.dropWhile_cons_of_pos hc, ih, tokens_blank hc]

theorem tokens_word {name : String} {rest : List Char} (hne : name ≠ "")
    (hall : ∀ c ∈ name.toList, isWordChar c = true) (hrest : EndsWord rest) :
    tokens (name.toList ++ rest) = .word name :: tokens rest := by
  obtain ⟨c, text, hname⟩ := List.exists_cons_of_ne_nil (mt String.toList_eq_nil_iff.1 hne)
  rw [hname] at hall
  obtain ⟨hc, htext⟩ := List.forall_mem_cons.1 hall
  rw [hname, List.cons_append, tokens, if_pos hc, takeWhile_append htext hrest.isWordChar_head,
    dropWhile_append htext hrest.isWordChar_head, ← hname, String.ofList_toList]

/-! ## Formulas -/

/-- A part of a canonical form. -/
inductive Piece where
  | opening
  | closing
  | symbol (name : String)
  | connective (op : Connective)

/-- The token that a canonical form has for a piece. -/
def Piece.token : Piece → Token
  | opening => .opening
  | closing => .closing
  | symbol name => .word name
  | connective op => .word op.linkWord

/-- A token from which a piece may have been read. Words for connectives may be written in any case,
and implication also as in prefix form. -/
inductive Piece.ReadFrom : Piece → Token → Prop where
  | opening : ReadFrom .opening .opening
  | closing : ReadFrom .closing .closing
  | symbol {name : String} : ReadFrom (.symbol name) (.word name)
  | connective {op : Connective} {name : String} :
      sameWord op.linkWord name = true → ReadFrom (.connective op) (.word name)
  | implies {name : String} :
      sameWord Connective.implies.word name = true → ReadFrom (.connective .implies) (.word name)

namespace Formula

/-- The pieces of the canonical form. An empty symbol has none. -/
def pieces : Formula → List Piece
  | atom name => if name = "" then [] else [.symbol name]
  | node op fs =>
    let parts := fs.map fun f => f.pieces
    if op = .not then .opening :: .connective op :: parts.flatten ++ [.closing]
    else .opening :: [.connective op].intercalate parts ++ [.closing]

/-- The pieces of the operands behind the first one, each behind its link. -/
def linkedPieces (op : Connective) (fs : List Formula) : List Piece :=
  fs.flatMap fun f => .connective op :: f.pieces

theorem pieces_atom (name : String) :
    (atom name).pieces = if name = "" then [] else [.symbol name] := by
  rw [pieces]

theorem pieces_not (f : Formula) :
    (node .not [f]).pieces = .opening :: .connective .not :: (f.pieces ++ [.closing]) := by
  rw [pieces]
  simp

theorem pieces_group {op : Connective} (hop : op ≠ .not) (f : Formula) (fs : List Formula) :
    (node op (f :: fs)).pieces =
      .opening :: (f.pieces ++ (linkedPieces op fs ++ [.closing])) := by
  rw [pieces]
  simp only [if_neg hop, List.map_cons, intercalate_cons, List.flatMap_map, linkedPieces]
  simp

/-! ## Canonical forms -/

/-- The canonical form has the tokens of the pieces, in front of anything that ends a word. -/
def Tokenized (f : Formula) : Prop :=
  ∀ rest, EndsWord rest →
    tokens (f.canonicalForm ++ rest) = f.pieces.map Piece.token ++ tokens rest

theorem tokens_linkWord (op : Connective) {rest : List Char} (hrest : EndsWord rest) :
    tokens (op.linkWord.toList ++ rest) = .word op.linkWord :: tokens rest :=
  tokens_word (by cases op <;> decide) op.isWordChar_linkWord hrest

theorem tokens_linked {op : Connective} {fs : List Formula} (hfs : ∀ f ∈ fs, f.Tokenized)
    (rest : List Char) :
    tokens (linked op fs ++ [')'] ++ rest) =
      (linkedPieces op fs ++ [Piece.closing]).map Piece.token ++ tokens rest := by
  induction fs with
  | nil => exact tokens_closing rest
  | cons f fs ih =>
    have hlinked : linked op (f :: fs) ++ [')'] ++ rest =
        ' ' :: (op.linkWord.toList ++ ' ' :: (f.canonicalForm ++ (linked op fs ++ [')'] ++ rest))) := by
      simp [linked_cons]
    rw [hlinked, tokens_blank (by decide), tokens_linkWord op (endsWord_blank (by decide) _),
      tokens_blank (by decide), hfs f List.mem_cons_self _ (endsWord_linked op fs rest),
      ih fun g hg => hfs g (List.mem_cons_of_mem _ hg)]
    simp [linkedPieces, Piece.token]

theorem tokens_canonicalForm {e : Formula} (he : e.Spelled) : e.Tokenized := by
  induction e using induct with
  | atom name =>
    intro rest hrest
    rw [canonicalForm_atom, pieces_atom]
    by_cases hname : name = ""
    · subst hname
      rfl
    · rw [tokens_word hname (spelled_atom_iff.1 he) hrest, if_neg hname]
      rfl
  | node op fs ih =>
    intro rest _
    obtain ⟨-, hfs, -⟩ := spelled_node_iff.1 he
    have htokens : ∀ f ∈ fs, f.Tokenized := fun f hf => ih f hf (hfs f hf)
    rcases he.not_or_group with ⟨rfl, f, rfl⟩ | ⟨hop, f, fs, rfl⟩
    · have hform : (node .not [f]).canonicalForm ++ rest =
          '(' :: (Connective.not.linkWord.toList ++ ' ' :: (f.canonicalForm ++ ')' :: rest)) := by
        simp [canonicalForm_not]
      rw [hform, tokens_opening, tokens_linkWord _ (endsWord_blank (by decide) _),
        tokens_blank (by decide), htokens f List.mem_cons_self _ (endsWord_close rest),
        tokens_closing, pieces_not]
      simp [Piece.token]
    · have hform : (node op (f :: fs)).canonicalForm ++ rest =
          '(' :: (f.canonicalForm ++ (linked op fs ++ [')'] ++ rest)) := by
        simp [canonicalForm_group hop]
      rw [hform, tokens_opening, htokens f List.mem_cons_self _ (endsWord_linked op fs rest),
        tokens_linked fun g hg => htokens g (List.mem_cons_of_mem _ hg), pieces_group hop]
      simp [Piece.token]

end Formula

end Consequence
