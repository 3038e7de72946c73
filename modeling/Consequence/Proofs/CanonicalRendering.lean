import Consequence.Proofs.CanonicalSteps
import Consequence.Proofs.NormalForm

/-!
# Canonical forms are read

The canonical reader reads the canonical form of a formula, in front of anything that ends a word,
and gives the normal form, as long as there is room and no group starts with a word `not`.

* `Reader.reads_links`: the operands of a group behind the first one, link by link.
* `Reader.reads_term`: every formula, by induction on it.
* `Reader.canonical_canonicalForm`: a text that is one canonical form.
-/

set_option autoImplicit false

namespace Consequence

namespace Connective

/-- A link starts with a character that neither is a blank nor closes a group. -/
theorem head_linkWord (op : Connective) (rest : List Char) :
    ∃ c, (op.linkWord.toList ++ rest).head? = some c ∧ isBlank c = false ∧ c ≠ ')' ∧ c ≠ '(' := by
  cases op
  case implies => exact ⟨'i', rfl, by decide, by decide, by decide⟩
  all_goals exact ⟨_, rfl, by decide, by decide, by decide⟩

/-- While its links are read, a group has fewer operands than in the end. -/
theorem accepts_of_le {op : Connective} {count k : Nat} (hop : op ≠ not)
    (hcount : op.arity.accepts count = true) (htwo : 2 ≤ k) (hk : k ≤ count) :
    op.arity.accepts k = true := by
  cases op <;> simp_all [arity, Arity.accepts] <;> omega

end Connective

namespace Formula

/-- There are more characters than links, and than characters of each operand. -/
theorem length_le_linked (op : Connective) (fs : List Formula) :
    fs.length ≤ (linked op fs).length ∧
      ∀ f ∈ fs, f.canonicalForm.length ≤ (linked op fs).length := by
  have hpos (f : Formula) : 0 < (' ' :: (op.linkWord.toList ++ ' ' :: f.canonicalForm)).length :=
    Nat.succ_pos _
  obtain ⟨hlength, hall⟩ := length_le_flatMap hpos fs
  refine ⟨hlength, fun f hf => ?_⟩
  have hlonger := hall f hf
  simp only [List.length_cons, List.length_append] at hlonger
  rw [linked]
  omega

theorem named_of_cons {f : Formula} {fs : List Formula}
    (h : ∀ g ∈ (f :: fs).dropLast, g ≠ .atom "") : ∀ g ∈ fs.dropLast, g ≠ .atom "" := by
  cases fs with
  | nil => simp
  | cons g fs => exact fun k hk => h k (List.mem_cons_of_mem _ hk)

theorem named_or_closes {f : Formula} {fs : List Formula}
    (h : ∀ g ∈ (f :: fs).dropLast, g ≠ .atom "") (op : Connective) (rest : List Char) :
    f ≠ .atom "" ∨ (linked op fs ++ [')'] ++ rest).head? = some ')' := by
  cases fs with
  | nil => exact .inr rfl
  | cons g fs => exact .inl (h f List.mem_cons_self)

end Formula

namespace Reader

open Formula

variable {caret after opened : Caret} {form : Reader Formula} {f : Formula} {op : Connective}
  {op? : Option Connective} {limit rounds room count : Nat} {rest : List Char}

theorem reads_link (hop : op ≠ .not) (hsame : op?.getD op = op)
    (hcount : op.arity.accepts (count + 1) = true) (hrest : EndsWord rest) :
    Reads (link op? count) op.linkWord.toList rest op := by
  intro passed
  rw [link_eq_ok_iff]
  exact ⟨op.linkWord, reads_word op.isWordChar_linkWord hrest passed,
    Connective.ofLink?_linkWord hop, hsame, hcount⟩

theorem reads_close : Reads (close opened) [')'] rest () := by
  intro passed
  have hskip := Caret.skip_eq_self (p := isBlank) ⟨passed, [')'] ++ rest⟩ rfl (by decide)
  rw [close_eq_ok_iff, hskip]
  exact ⟨rfl, rfl⟩

/-- The reader reads the canonical form wherever the form can stand. -/
def ReadsForm (form : Reader Formula) (f : Formula) : Prop :=
  ∀ rest, EndsWord rest → (f ≠ .atom "" ∨ rest.head? = some ')') →
    Reads (term form) f.canonicalForm rest f.norm

/-- One round reads a link and an operand; the other rounds read what follows. -/
theorem reads_links_succ {done : Array Formula} {written text : List Char} {g : Formula}
    (hlink : Reads (link op? done.size) op.linkWord.toList (' ' :: written ++ (text ++ rest)) op)
    (hterm : Reads (term form) written (text ++ rest) g)
    (hlinks : Reads (links form opened rounds (some op) (done.push g)) text rest f) :
    Reads (links form opened (rounds + 1) op? done)
      (' ' :: (op.linkWord.toList ++ ' ' :: (written ++ text))) rest f := by
  intro passed
  obtain ⟨c, hc, hblank, hclose, -⟩ := op.head_linkWord (' ' :: written ++ (text ++ rest))
  have hahead : ' ' :: (op.linkWord.toList ++ ' ' :: (written ++ text)) ++ rest =
      [' '] ++ (op.linkWord.toList ++ (' ' :: written ++ (text ++ rest))) := by
    simp
  have hpassed : (' ' :: (op.linkWord.toList ++ ' ' :: (written ++ text))).reverse ++ passed =
      text.reverse ++ ((' ' :: written).reverse ++
        (op.linkWord.toList.reverse ++ ([' '].reverse ++ passed))) := by
    simp
  have hskip : Caret.skip isBlank
      ⟨passed, [' '] ++ (op.linkWord.toList ++ (' ' :: written ++ (text ++ rest)))⟩ =
      ⟨[' '].reverse ++ passed, op.linkWord.toList ++ (' ' :: written ++ (text ++ rest))⟩ :=
    Caret.skip_append (List.forall_mem_singleton.2 (by decide))
      (fun d hd => Option.some.inj (hc.symm.trans hd) ▸ hblank) passed
  rw [hahead, hpassed, links_succ_eq_ok_iff, hskip]
  exact .inr ⟨c, op, _, g, _, hc, hclose, hlink _, hterm.blank _, hlinks _⟩

/-- The links and operands of a group, one round each, and its closing parenthesis. -/
theorem reads_links {fs : List Formula} {done : Array Formula} (hop : op ≠ .not)
    (hform : ∀ f ∈ fs, ReadsForm form f) (hnamed : ∀ f ∈ fs.dropLast, f ≠ .atom "")
    (hsame : op?.getD op = op)
    (hcount : ∀ k, done.size < k → k ≤ done.size + fs.length → op.arity.accepts k = true)
    (hrounds : fs.length < rounds) :
    Reads (links form opened rounds op? done) (linked op fs ++ [')']) rest
      (.node ((if fs = [] then op? else some op).getD .and) (done.toList ++ fs.map norm)) := by
  induction fs generalizing op? done rounds with
  | nil =>
    intro passed
    obtain ⟨rounds, rfl⟩ := Nat.exists_eq_add_one.2 hrounds
    have hskip := Caret.skip_eq_self (p := isBlank) ⟨passed, [')'] ++ rest⟩ rfl (by decide)
    rw [linked_nil, List.nil_append, links_succ_eq_ok_iff, hskip]
    exact .inl ⟨rfl, rfl, by simp⟩
  | cons f fs ih =>
    obtain ⟨rounds, rfl⟩ := Nat.exists_eq_add_one.2 (Nat.zero_lt_of_lt hrounds)
    simp only [List.length_cons] at hcount hrounds
    have hlink : Reads (link op? done.size) op.linkWord.toList
        (' ' :: f.canonicalForm ++ (linked op fs ++ [')'] ++ rest)) op :=
      reads_link hop hsame (hcount _ (by omega) (by omega)) (endsWord_blank (by decide) _)
    have hrest : Reads (links form opened rounds (some op) (done.push f.norm))
        (linked op fs ++ [')']) rest _ := ih
      (fun g hg => hform g (List.mem_cons_of_mem _ hg)) (named_of_cons hnamed) rfl
      (fun k hk hle => hcount k (by simp at hk; omega) (by simp at hle; omega)) (by omega)
    have hround := reads_links_succ hlink (hform f List.mem_cons_self _ (endsWord_linked op fs rest)
      (named_or_closes hnamed op rest)) hrest
    simpa [linked_cons] using hround

/-! ## Forms -/

theorem reads_grouped_not (hform : ReadsForm (grouped limit rounds room) f) :
    Reads (grouped limit rounds (room + 1)) (node .not [f]).canonicalForm rest
      (.node .not [f.norm]) := by
  intro passed
  have hahead : (node .not [f]).canonicalForm ++ rest =
      '(' :: (Connective.not.linkWord.toList ++ (' ' :: f.canonicalForm ++ ([')'] ++ rest))) := by
    simp [canonicalForm_not]
  have hpassed : (node .not [f]).canonicalForm.reverse ++ passed =
      [')'].reverse ++ ((' ' :: f.canonicalForm).reverse ++
        (Connective.not.linkWord.toList.reverse ++ '(' :: passed)) := by
    simp [canonicalForm_not]
  have hskip := Caret.skip_eq_self (p := isBlank) ⟨'(' :: passed,
    Connective.not.linkWord.toList ++ (' ' :: f.canonicalForm ++ ([')'] ++ rest))⟩ rfl (by decide)
  have hword : Reads word Connective.not.linkWord.toList
      (' ' :: f.canonicalForm ++ ([')'] ++ rest)) Connective.not.linkWord :=
    reads_word Connective.not.isWordChar_linkWord (endsWord_blank (by decide) _)
  have hterm := (hform ([')'] ++ rest) (endsWord_close rest) (.inr rfl)).blank
  rw [hahead, hpassed, grouped_succ_eq_ok_iff, Caret.advance, hskip]
  exact .inr ⟨'n', _, _, rfl, by decide, hword _,
    .inl ⟨by decide, _, _, hterm _, reads_close _, rfl⟩⟩

/-- The first operand of a group is read before the links, if it is not a word `not`. -/
theorem reads_grouped_group {text : List Char} {g : Formula} (hspelled : f.Spelled)
    (hnot : ∀ name, f = .atom name → sameWord "not" name = false)
    (hends : EndsWord (text ++ rest)) (hlast : f ≠ .atom "" ∨ (text ++ rest).head? = some ')')
    (hform : ReadsForm (grouped limit rounds room) f)
    (hlinks : ∀ opened, Reads (links (grouped limit rounds room) opened rounds none #[f.norm])
      text rest g) :
    Reads (grouped limit rounds (room + 1)) ('(' :: (f.canonicalForm ++ text)) rest g := by
  intro passed
  have hahead : '(' :: (f.canonicalForm ++ text) ++ rest =
      '(' :: (f.canonicalForm ++ (text ++ rest)) := by
    simp
  have hpassed : ('(' :: (f.canonicalForm ++ text)).reverse ++ passed =
      text.reverse ++ (f.canonicalForm.reverse ++ '(' :: passed) := by
    simp
  rw [hahead, hpassed, grouped_succ_eq_ok_iff, Caret.advance]
  have hterm := hform _ hends hlast
  cases f with
  | atom name =>
    rw [spelled_atom_iff] at hspelled
    obtain ⟨c, hc, hblank, hopen⟩ : ∃ c, (name.toList ++ (text ++ rest)).head? = some c ∧
        isBlank c = false ∧ c ≠ '(' := head_name hspelled (by simpa using hlast)
    rw [canonicalForm_atom]
    rw [norm_atom] at hlinks
    have hskip := Caret.skip_eq_self ⟨'(' :: passed, name.toList ++ (text ++ rest)⟩ hc hblank
    rw [hskip]
    exact .inr ⟨c, name, _, hc, hopen, reads_word hspelled hends _,
      .inr ⟨hnot name rfl, hlinks _ _⟩⟩
  | node op fs =>
    obtain ⟨inner, hinner⟩ := canonicalForm_node op fs
    rw [hinner] at hterm ⊢
    have hskip := Caret.skip_eq_self (p := isBlank)
      ⟨'(' :: passed, '(' :: inner ++ (text ++ rest)⟩ rfl (by decide)
    rw [hskip]
    exact .inl ⟨rfl, _, _, reads_term_form.1 hterm _, hlinks _ _⟩

/-- A group whose operands are read is read in normal form: without links it is a conjunction. -/
theorem reads_grouped_norm {fs : List Formula} (hop : op ≠ .not)
    (hspelled : (node op (f :: fs)).Spelled)
    (hnot : ∀ name, f = .atom name → sameWord "not" name = false)
    (hforms : ∀ g ∈ f :: fs, ReadsForm (grouped limit rounds room) g)
    (hrounds : fs.length < rounds) :
    Reads (grouped limit rounds (room + 1)) (node op (f :: fs)).canonicalForm rest
      (node op (f :: fs)).norm := by
  obtain ⟨hcount, hspelled, hnamed⟩ := spelled_node_iff.1 hspelled
  have hlinks (opened : Caret) :
      Reads (links (grouped limit rounds room) opened rounds none #[f.norm])
        (linked op fs ++ [')']) rest _ := reads_links hop
    (fun g hg => hforms g (List.mem_cons_of_mem _ hg)) (named_of_cons hnamed) rfl
    (fun k hk hle => Connective.accepts_of_le hop hcount hk (by simpa [Nat.add_comm] using hle))
    hrounds
  have hregroup : (if fs = [] then none else some op).getD .and = op.regroup (f :: fs).length := by
    cases fs with
    | nil => exact (Connective.regroup_one hop hcount).symm
    | cons g fs => exact (Connective.regroup_of_ne_one (by simp)).symm
  rw [hregroup] at hlinks
  rw [canonicalForm_group hop, norm_node]
  exact reads_grouped_group (hspelled f List.mem_cons_self) hnot (endsWord_linked op fs rest)
    (named_or_closes hnamed op rest) (hforms f List.mem_cons_self) hlinks

/-- A formula is read back in normal form if there is room for it and no group starts with a word
`not`. Only a last operand may be without a name. -/
theorem reads_term {e : Formula} (hspelled : e.Spelled) (hback : e.ReadsBack)
    (hdepth : e.depth ≤ room) (hrounds : e.canonicalForm.length ≤ rounds) :
    ReadsForm (grouped limit rounds room) e := by
  induction e using Formula.induct generalizing room with
  | atom name =>
    intro rest hends hstart
    rw [spelled_atom_iff] at hspelled
    rw [canonicalForm_atom, norm_atom]
    exact reads_term_atom hspelled hends (by simpa using hstart)
  | node op fs ih =>
    intro rest hends _
    obtain ⟨-, hoperands, -⟩ := spelled_node_iff.1 hspelled
    obtain ⟨hhead, hback⟩ := readsBack_node_iff.1 hback
    obtain ⟨inner, hinner⟩ := canonicalForm_node op fs
    obtain ⟨room, rfl, hroom⟩ := room_of_depth_node_le hdepth
    rw [hinner, reads_term_form, ← hinner]
    have hforms : ∀ f ∈ fs, f.canonicalForm.length ≤ rounds →
        ReadsForm (grouped limit rounds room) f := fun f hf =>
      ih f hf (hoperands f hf) (hback f hf) (hroom f hf)
    -- each operand is shorter than the whole, which has more characters than operands
    rcases hspelled.not_or_group with ⟨rfl, f, rfl⟩ | ⟨hop, f, fs, rfl⟩
    · simp only [canonicalForm_not, List.length_cons, List.length_append] at hrounds
      rw [norm_node]
      exact reads_grouped_not (hforms f List.mem_cons_self (by omega))
    · simp only [canonicalForm_group hop, List.length_cons, List.length_append] at hrounds
      obtain ⟨hlength, hshorter⟩ := length_le_linked op fs
      refine reads_grouped_norm hop hspelled (fun name hname => hhead hop name (by rw [hname]; rfl))
        (fun g hg => hforms g hg ?_) (by omega)
      rcases List.mem_cons.1 hg with rfl | hg
      · omega
      · have := hshorter g hg
        omega

theorem canonical_canonicalForm {e : Formula} (hspelled : e.Spelled) (hback : e.ReadsBack)
    (hdepth : e.depth ≤ limit) (hname : e ≠ .atom "") :
    canonical limit { ahead := e.canonicalForm } =
      .ok e.norm ⟨e.canonicalForm.reverse, []⟩ := by
  rw [canonical_eq_ok_iff]
  have hform : ReadsForm (grouped limit e.canonicalForm.length limit) e :=
    reads_term hspelled hback hdepth (Nat.le_refl _)
  have hterm := hform [] endsWord_nil (.inl hname) []
  rw [List.append_nil, List.append_nil] at hterm
  exact ⟨_, hterm, rfl, rfl⟩

end Reader

end Consequence
