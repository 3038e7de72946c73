import Consequence.Proofs.RoundTrip
import Consequence.Proofs.Tokens

/-!
# The canonical reader keeps all tokens

Whatever text the canonical reader accepts, it makes a formula of the tokens of the text, one piece of
the canonical form from each.

* `Reader.Covers`: the text between two carets has a token for each of some pieces.
* `Reader.covers_links`: what a group reads behind its first operand; `Reader.covers_grouped`,
  `Reader.readFrom_of_canonical`: forms and whole texts.
* `Formula.ofCanonical_keeps`: the formula that is read has the tokens of the text, and its canonical
  form is read as the same formula.
-/

set_option autoImplicit false

namespace Consequence

theorem Connective.readFrom_of_ofLink? {op : Connective} {name : String}
    (h : ofLink? name = some op) : (Piece.connective op).ReadFrom (.word name) := by
  rcases (ofLink?_eq_some_iff.1 h).2 with hlink | hword
  · exact .connective hlink
  · cases op with
    | implies => exact .implies hword
    | _ => exact .connective hword

namespace Reader

open Formula

variable {caret between after opened : Caret} {form : Reader Formula} {f : Formula}
  {op : Connective} {op? : Option Connective} {done : Array Formula} {limit rounds room count : Nat}
  {pieces others : List Piece}

/-- The text from one caret to another has a token for each of the pieces. -/
def Covers (caret : Caret) (pieces : List Piece) (after : Caret) : Prop :=
  ∃ read, tokens caret.ahead = read ++ tokens after.ahead ∧ List.Forall₂ Piece.ReadFrom pieces read

theorem Covers.trans (h : Covers caret pieces between) (h' : Covers between others after) :
    Covers caret (pieces ++ others) after := by
  obtain ⟨read, htokens, hread⟩ := h
  obtain ⟨next, htokens', hnext⟩ := h'
  exact ⟨read ++ next, by rw [htokens, htokens', List.append_assoc], List.rel_append hread hnext⟩

/-! ## Single steps -/

theorem covers_skip (h : Covers (caret.skip isBlank) pieces after) : Covers caret pieces after := by
  have hskip : tokens (caret.skip isBlank).ahead = tokens caret.ahead :=
    tokens_dropWhile_isBlank caret.ahead
  rwa [Covers, hskip] at h

/-- A character that is a token of its own. -/
theorem covers_char {c : Char} {piece : Piece} {token : Token}
    (htokens : ∀ rest, tokens (c :: rest) = token :: tokens rest) (hread : piece.ReadFrom token)
    (h : caret.ahead.head? = some c) : Covers caret [piece] caret.advance := by
  obtain ⟨passed, ahead⟩ := caret
  obtain ⟨rest, rfl⟩ := List.head?_eq_some_iff.1 h
  exact ⟨[token], htokens rest, .cons hread .nil⟩

theorem covers_open (h : caret.ahead.head? = some '(') : Covers caret [.opening] caret.advance :=
  covers_char tokens_opening .opening h

theorem covers_closing (h : caret.ahead.head? = some ')') : Covers caret [.closing] caret.advance :=
  covers_char tokens_closing .closing h

theorem tokens_of_word {name : String} (h : word caret = .ok name after) (hne : name ≠ "") :
    tokens caret.ahead = .word name :: tokens after.ahead := by
  obtain ⟨rfl, rfl, hends⟩ := word_eq_ok_iff.1 h
  have hall : ∀ c ∈ caret.ahead.takeWhile isWordChar, isWordChar c = true := fun c hc =>
    List.all_eq_true.1 List.all_takeWhile c hc
  have htokens := tokens_word hne (by rwa [String.toList_ofList]) hends
  rw [String.toList_ofList] at htokens
  rw [← htokens]
  exact congrArg tokens List.takeWhile_append_dropWhile.symm

theorem covers_atom {name : String} (h : word caret = .ok name after) :
    Covers caret (atom name).pieces after := by
  rw [pieces_atom]
  by_cases hname : name = ""
  · -- a word without characters leaves the caret where it is
    subst hname
    obtain ⟨hempty, rfl, -⟩ := word_eq_ok_iff.1 h
    have hnil := String.ofList_injective hempty
    refine ⟨[], ?_, .nil⟩
    have hsplit := List.takeWhile_append_dropWhile (p := isWordChar) (l := caret.ahead)
    rw [hnil] at hsplit
    exact congrArg tokens hsplit.symm
  · rw [if_neg hname]
    exact ⟨[.word name], tokens_of_word h hname, .cons .symbol .nil⟩

theorem covers_link (h : link op? count caret = .ok op after) :
    Covers caret [.connective op] after := by
  obtain ⟨name, hword, hop, -, -⟩ := link_eq_ok_iff.1 h
  have hne : name ≠ "" := by
    rintro rfl
    revert hop
    cases op <;> decide
  exact ⟨[.word name], tokens_of_word hword hne, .cons (Connective.readFrom_of_ofLink? hop) .nil⟩

/-! ## Formulas -/

/-- A form is read from its parenthesis on, and covers its pieces. -/
def CoversForms (form : Reader Formula) : Prop :=
  ∀ caret f after, caret.ahead.head? = some '(' → form caret = .ok f after → Covers caret f.pieces after

theorem covers_term (hform : CoversForms form) (h : term form caret = .ok f after) :
    Covers caret f.pieces after := by
  rcases term_eq_ok_iff.1 h with ⟨hopen, hf⟩ | ⟨c, name, -, -, hword, rfl⟩
  · exact covers_skip (hform _ _ _ hopen hf)
  · exact covers_skip (covers_atom hword)

/-- A group goes on with links and operands up to its closing parenthesis. The links are all the same
connective. -/
theorem covers_links (hform : CoversForms form) (hop? : op? ≠ some .not)
    (h : links form opened rounds op? done caret = .ok f after) :
    ∃ op fs, f = .node op (done.toList ++ fs) ∧ op ≠ .not ∧ op?.getD op = op ∧
      Covers caret (linkedPieces op fs ++ [.closing]) after := by
  induction rounds generalizing op? done caret with
  | zero => exact absurd h links_zero_ne_ok
  | succ rounds ih =>
    rcases links_succ_eq_ok_iff.1 h with
      ⟨hclose, rfl, rfl⟩ | ⟨c, op, linked, g, joined, hc, hclose, hlink, hterm, hlinks⟩
    · -- a group without links is a conjunction
      refine ⟨op?.getD .and, [], by simp, ?_, by cases op? <;> rfl, ?_⟩
      · cases op? with
        | none => exact fun hand => Connective.noConfusion hand
        | some op => exact fun hnot => hop? (congrArg some hnot)
      · exact covers_skip (covers_closing hclose)
    · obtain ⟨name, -, hfound, hsame, -⟩ := link_eq_ok_iff.1 hlink
      have hnot : some op ≠ some .not := fun hnot =>
        Connective.ne_not_of_ofLink? hfound (Option.some.inj hnot)
      obtain ⟨last, fs, rfl, hlast, hlinked, hcovers⟩ := ih hnot hlinks
      obtain rfl : op = last := hlinked
      refine ⟨op, g :: fs, by simp, hlast, hsame, ?_⟩
      have hround := (covers_skip (covers_link hlink)).trans ((covers_term hform hterm).trans hcovers)
      simpa [linkedPieces] using hround

theorem covers_group {g : Formula} (hopen : caret.ahead.head? = some '(')
    (hfirst : Covers (caret.advance.skip isBlank) g.pieces between) (hform : CoversForms form)
    (h : links form opened rounds none #[g] between = .ok f after) : Covers caret f.pieces after := by
  obtain ⟨op, fs, rfl, hop, -, hcovers⟩ := covers_links hform (by simp) h
  have hgroup : (node op (g :: fs)).pieces =
      [.opening] ++ (g.pieces ++ (linkedPieces op fs ++ [.closing])) := pieces_group hop g fs
  rw [List.singleton_append, hgroup]
  exact (covers_open hopen).trans ((covers_skip hfirst).trans hcovers)

theorem covers_grouped : CoversForms (grouped limit rounds room) := by
  induction room with
  | zero => exact fun _ _ _ _ h => absurd h grouped_zero_ne_ok
  | succ room ih =>
    intro caret f after hopen h
    rcases grouped_succ_eq_ok_iff.1 h with ⟨hfirst, g, first, hg, hlinks⟩ |
      ⟨c, name, first, hc, _, hword, ⟨hnot, g, last, hterm, hclose, rfl⟩ | ⟨hnot, hlinks⟩⟩
    · -- the first operand is a form
      exact covers_group hopen (ih _ _ _ hfirst hg) ih hlinks
    · -- a negation
      have hne : name ≠ "" := by
        rintro rfl
        revert hnot
        decide
      obtain ⟨hend, rfl⟩ := close_eq_ok_iff.1 hclose
      have hnegation : Covers (caret.advance.skip isBlank) [.connective .not] first :=
        ⟨[.word name], tokens_of_word hword hne, .cons (.connective hnot) .nil⟩
      rw [pieces_not]
      exact (covers_open hopen).trans ((covers_skip hnegation).trans
        ((covers_term ih hterm).trans (covers_skip (covers_closing hend))))
    · -- the first operand is a word, and not `not`
      exact covers_group hopen (covers_atom hword) ih hlinks

/-- A text that is read as a formula has a token for each piece of it, and no other. -/
theorem readFrom_of_canonical (h : canonical limit caret = .ok f after) :
    List.Forall₂ Piece.ReadFrom f.pieces (tokens caret.ahead) := by
  obtain ⟨last, hterm, hskip, hend⟩ := canonical_eq_ok_iff.1 h
  obtain ⟨read, htokens, hread⟩ := covers_term covers_grouped hterm
  have hrest : tokens last.ahead = [] := by
    rw [← tokens_dropWhile_isBlank]
    have hnil : last.ahead.dropWhile isBlank = [] := by rw [← hend, ← hskip]; rfl
    rw [hnil, tokens_nil]
  rwa [htokens, hrest, List.append_nil]

/-- A whole text is no empty symbol, because such a symbol has a parenthesis behind it. -/
theorem ne_empty_of_canonical (h : canonical limit caret = .ok f after) : f ≠ .atom "" := by
  rintro rfl
  obtain ⟨last, hterm, hskip, hend⟩ := canonical_eq_ok_iff.1 h
  have hclose := (shown_term shown_grouped hterm).2 rfl
  rw [Caret.skip_eq_self _ hclose (by decide)] at hskip
  rw [hskip, hend] at hclose
  cases hclose

end Reader

namespace Formula

variable {text : String} {limits : Limits} {e : Formula}

/-- **The canonical reader keeps all tokens**: a text that is read has the tokens of the canonical form
of its formula, but that a connective may be written in another case and implication as `if`. Operand
counts are accepted, and the canonical form is read as the same formula, also where a last operand is
an empty symbol. -/
theorem ofCanonical_keeps (h : ofCanonical text limits = .ok e) :
    tokens e.canonicalText.toList = e.pieces.map Piece.token ∧
      List.Forall₂ Piece.ReadFrom e.pieces (tokens text.toList) ∧ e.Spelled ∧
      ofCanonical e.canonicalText limits = .ok e := by
  have hshown := shown_ofCanonical h
  obtain ⟨after, hread⟩ := ofCanonical_eq_ok_iff.1 h
  refine ⟨?_, Reader.readFrom_of_canonical hread, hshown.spelled, ?_⟩
  · have htokens := tokens_canonicalForm hshown.spelled [] endsWord_nil
    rw [List.append_nil, tokens_nil, List.append_nil] at htokens
    rw [canonicalText, String.toList_ofList, htokens]
  · have hagain := Reader.canonical_canonicalForm hshown.spelled hshown.readsBack hshown.depth_le
      (Reader.ne_empty_of_canonical hread)
    rw [hshown.norm_eq] at hagain
    rw [ofCanonical_eq_ok_iff, canonicalText, String.toList_ofList]
    exact ⟨_, hagain⟩

/-- A negation and a conjunction that end in an empty symbol. -/
def emptyLast : Formula :=
  .node .implies [.node .not [.atom ""], .node .and [.atom "a", .atom ""]]

theorem ofCanonical_keeps_emptyLast :
    ofCanonical "((NOT) If (a AND ))" {} = .ok emptyLast ∧
      emptyLast.canonicalText = "((not ) impl (a and ))" ∧
      tokens emptyLast.canonicalText.toList = emptyLast.pieces.map Piece.token ∧
      List.Forall₂ Piece.ReadFrom emptyLast.pieces (tokens "((NOT) If (a AND ))".toList) ∧
      emptyLast.Spelled ∧ ofCanonical emptyLast.canonicalText {} = .ok emptyLast := by
  have hread : ofCanonical "((NOT) If (a AND ))" {} = .ok emptyLast := by cbv
  exact ⟨hread, by cbv, ofCanonical_keeps hread⟩

/-- Implication is read from `if` and written `impl`. -/
theorem not_forall_sameUpToCase_tokens :
    ¬∀ (text : String) (limits : Limits) (e : Formula), ofCanonical text limits = .ok e →
      List.Forall₂ (fun s t => Token.sameUpToCase s t = true) (tokens text.toList)
        (tokens e.canonicalText.toList) := by
  intro hall
  have hread : ofCanonical "(p if q)" {} = .ok (node .implies [atom "p", atom "q"]) := by cbv
  have htokens : tokens "(p if q)".toList =
      [.opening, .word "p", .word "if", .word "q", .closing] := by cbv
  have hwritten : tokens (node .implies [atom "p", atom "q"]).canonicalText.toList =
      [.opening, .word "p", .word "impl", .word "q", .closing] := by cbv
  have hsame := hall _ _ _ hread
  rw [htokens, hwritten] at hsame
  obtain ⟨-, -, hword, -⟩ := by simpa only [List.forall₂_cons] using hsame
  revert hword
  decide

end Formula

end Consequence
