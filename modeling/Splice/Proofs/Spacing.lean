import Splice.Proofs.Printing

/-!
# Spacing

The text of a term spells the tokens of the term: between two tokens that would run into each other
there is a space, also between two signs.
-/
namespace Splice

/-! ## Putting texts together -/

/-- The text does not go on with a part of a word. -/
def endsWord (cs : List Char) : Prop := ∀ c ∈ cs.head?, NameChar.isPart c = false ∧ c ≠ '\\'

theorem endsWord_cons {c : Char} (part : NameChar.isPart c = false) (plain : c ≠ '\\')
    (cs : List Char) : endsWord (c :: cs) := by
  intro d first
  cases first
  exact ⟨part, plain⟩

/-- The text spells the tokens, whatever comes after them. -/
def Spells (text : List Char) (ts : List Tok) : Prop :=
  ∀ ⦃us : List Tok⦄ ⦃cs : List Char⦄, Laid us cs → endsWord cs → Laid (ts ++ us) (text ++ cs)

namespace Laid

variable {ts : List Tok} {cs : List Char}

theorem gap (laid : Laid ts cs) {gap : List Char} (blank : gap.all isGapChar = true) :
    Laid ts (gap ++ cs) := by
  cases laid with
  | done rest => exact .done (by rw [List.all_append, blank, rest]; rfl)
  | @token more cs t ts rest apart laid =>
    rw [← List.append_assoc]
    exact .token (by rw [List.all_append, blank, rest]; rfl) apart laid

theorem space (laid : Laid ts cs) : Laid ts (' ' :: cs) := by
  have blank : [' '].all isGapChar = true := by decide
  exact laid.gap blank

theorem tok (laid : Laid ts cs) {t : Tok} (apart : t.apart cs = true) :
    Laid (t :: ts) (t.chars ++ cs) := by
  have blank : ([] : List Char).all isGapChar = true := rfl
  exact .token blank apart laid

theorem word (laid : Laid ts cs) (w : Word) (ends : endsWord cs) :
    Laid (.word w :: ts) (w.text.toList ++ cs) := by
  refine laid.tok (t := .word w) ?_
  cases cs with
  | nil => rfl
  | cons c cs =>
    obtain ⟨part, plain⟩ := ends c rfl
    simp [Tok.apart, Tok.clash, part, plain]

/-- A mark that no character runs into. -/
theorem mark (laid : Laid ts cs) (p : Punct) (never : ∀ c, p.clash c = false) :
    Laid (.mark p :: ts) (p.text.toList ++ cs) := by
  refine laid.tok (t := .mark p) ?_
  cases cs <;> simp [Tok.apart, Tok.clash, never]

end Laid

theorem Tok.apart_space (t : Tok) (cs : List Char) : t.apart (' ' :: cs) = true := by
  cases t with
  | word w => simp [apart, clash, show NameChar.isPart ' ' = false by decide]
  | mark p => cases p <;> rfl

theorem Tok.apart_append {t : Tok} {cs : List Char} (some : cs ≠ []) (ds : List Char) :
    t.apart (cs ++ ds) = t.apart cs := by
  cases cs with
  | nil => exact absurd rfl some
  | cons c cs => rfl

theorem NameChar.not_digit_of_isStart {c : Char} (start : isStart c = true) : c.isDigit = false := by
  have all : ∀ n ∈ List.range' 48 10, isStart (Char.ofNat n) = false := by decide
  cases digit : c.isDigit with
  | false => rfl
  | true =>
    have bounds : 48 ≤ c.toNat ∧ c.toNat ≤ 57 := by
      simpa [Char.isDigit, UInt32.le_iff_toNat_le] using digit
    have no := all c.toNat (by rw [List.mem_range'_1]; omega)
    rw [Char.ofNat_toNat, start] at no
    cases no

/-! ## The text of a term -/

namespace Term

theorem apart_bracket {t : Tok} {e : Term} {after : Option UnaryOp} (needed : Bool)
    (paren : t.clash '(' = false) (bare : t.apart (e.text after) = true) (cs : List Char) :
    t.apart (bracket needed after (fun a => e.text a) ++ cs) = true := by
  cases needed with
  | true =>
    change (!t.clash '(') = true
    rw [paren]
    rfl
  | false =>
    change t.apart (e.text after ++ cs) = true
    rw [Tok.apart_append (e.text_ne_nil after), bare]

/-- A term does not run into a sign before it. -/
theorem text_apart (e : Term) (op : UnaryOp) (sign : op.isWord = false) :
    op.tok.apart (e.text (some op)) = true := by
  have paren : op.tok.clash '(' = false := by
    cases op <;> rfl
  induction e using Term.induction_on with
  | name n =>
    obtain ⟨c, cs, text, start, -⟩ := n.chars_eq
    have other : ∀ d, NameChar.isStart d = false → c ≠ d := by
      rintro d no rfl
      rw [start] at no
      cases no
    have plus := other '+' (by decide)
    have minus := other '-' (by decide)
    have equals := other '=' (by decide)
    rw [Term.text, text]
    cases op <;> first
      | cases sign; done
      | simp [Tok.apart, UnaryOp.tok, Tok.clash, Punct.clash, plus, minus, equals]
  | member o f ih => exact apart_bracket _ paren ih _
  | call f as ih _ => exact apart_bracket _ paren ih _
  | unary o x => cases op <;> cases o <;> first | rfl | cases sign
  | binary o l r ih _ => exact apart_bracket _ paren ih _
  | logical o l r ih _ => exact apart_bracket _ paren ih _
  | conditional t y n ih _ _ => exact apart_bracket _ paren ih _

theorem bracket_spells {e : Term} (needed : Bool) (after : Option UnaryOp)
    (bare : ∀ a, Spells (e.text a) e.toks) :
    Spells (bracket needed after fun a => e.text a) (enclose needed e.toks) := by
  intro ts cs rest ends
  cases needed with
  | false => exact bare after rest ends
  | true =>
    simp only [enclose, bracket, if_true, List.cons_append, List.append_assoc, List.nil_append]
    refine Laid.mark (p := .lparen) (bare none ?_ (endsWord_cons (by decide) (by decide) _))
      fun c => rfl
    exact rest.mark .rparen fun c => rfl

theorem laterText_laid {as : List Term}
    (each : ∀ a ∈ as, Spells (a.text none) a.toks) {ts : List Tok} {cs : List Char} (rest : Laid ts cs)
    (ends : endsWord cs) :
    Laid (laterToks as ++ ts) (laterText as ++ cs) ∧ endsWord (laterText as ++ cs) := by
  induction as with
  | nil => exact ⟨rest, ends⟩
  | cons a as ih =>
    obtain ⟨laid, ends'⟩ := ih fun b inside => each b (by simp [inside])
    simp only [laterToks, laterText, List.cons_append, List.append_assoc]
    refine ⟨Laid.mark (p := .comma) ?_ fun c => rfl, endsWord_cons (by decide) (by decide) _⟩
    exact (each a (by simp) laid ends').space

theorem argumentText_laid {as : List Term}
    (each : ∀ a ∈ as, Spells (a.text none) a.toks) {ts : List Tok} {cs : List Char} (rest : Laid ts cs)
    (ends : endsWord cs) : Laid (argumentToks as ++ ts) (argumentText as ++ cs) := by
  cases as with
  | nil => exact rest
  | cons a as =>
    have later : ∀ b ∈ as, Spells (b.text none) b.toks := fun b inside => each b (by simp [inside])
    obtain ⟨laid, ends'⟩ := laterText_laid later rest ends
    simp only [argumentToks, argumentText, List.append_assoc]
    exact each a (by simp) laid ends'

/-- The text of a term spells the tokens of the term. -/
theorem text_spells (e : Term) : ∀ after : Option UnaryOp, Spells (e.text after) e.toks := by
  induction e using Term.induction_on with
  | name n => exact fun after ts cs rest ends => rest.word n.toWord ends
  | member o f ih =>
    intro after ts cs rest ends
    simp only [toks, text, List.append_assoc, List.cons_append, List.nil_append]
    refine bracket_spells _ after ih ?_ (endsWord_cons (by decide) (by decide) _)
    refine (rest.word f ends).tok (t := .mark .dot) ?_
    obtain ⟨c, r, text, start, -⟩ := f.chars_eq
    have digit := NameChar.not_digit_of_isStart start
    have dot : c ≠ '.' := by
      rintro rfl
      revert start
      decide
    rw [text]
    simp [Tok.apart, Tok.clash, Punct.clash, digit, dot]
  | call f as ih each =>
    intro after ts cs rest ends
    simp only [toks, text, List.append_assoc, List.cons_append, List.nil_append]
    refine bracket_spells _ after ih ?_ (endsWord_cons (by decide) (by decide) _)
    refine Laid.mark (p := .lparen) ?_ fun c => rfl
    refine argumentText_laid (fun a inside => each a inside none) ?_
      (endsWord_cons (by decide) (by decide) _)
    exact rest.mark .rparen fun c => rfl
  | unary op x ih =>
    intro after ts cs rest ends
    simp only [toks, text, List.cons_append]
    cases isWord : op.isWord with
    | true =>
      simp only [if_true, List.append_assoc, List.cons_append]
      rw [← op.tok_chars]
      exact (bracket_spells _ none ih rest ends).space.tok (op.tok.apart_space _)
    | false =>
      simp only [Bool.false_eq_true, if_false, List.append_assoc]
      have blank : (signGap after op).all isGapChar = true := by
        unfold signGap
        split <;> decide
      rw [← op.tok_chars]
      refine ((bracket_spells _ (some op) ih rest ends).tok ?_).gap blank
      have paren : op.tok.clash '(' = false := by
        cases op <;> rfl
      exact apart_bracket _ paren (x.text_apart op isWord) _
  | binary op l r ihl ihr =>
    intro after ts cs rest ends
    simp only [toks, text, List.append_assoc, List.cons_append]
    refine bracket_spells _ after ihl ?_ (endsWord_cons (by decide) (by decide) _)
    rw [← op.tok_chars]
    exact ((bracket_spells _ none ihr rest ends).space.tok (op.tok.apart_space _)).space
  | logical op l r ihl ihr =>
    intro after ts cs rest ends
    simp only [toks, text, List.append_assoc, List.cons_append]
    refine bracket_spells _ after ihl ?_ (endsWord_cons (by decide) (by decide) _)
    rw [← op.tok_chars]
    exact ((bracket_spells _ none ihr rest ends).space.tok (op.tok.apart_space _)).space
  | conditional t y n iht ihy ihn =>
    intro after ts cs rest ends
    simp only [toks, text, List.append_assoc, List.cons_append]
    refine bracket_spells _ after iht ?_ (endsWord_cons (by decide) (by decide) _)
    refine Laid.space (Laid.tok (t := .mark .question) ?_ (Tok.apart_space _ _))
    refine Laid.space (ihy none ?_ (endsWord_cons (by decide) (by decide) _))
    refine Laid.space (Laid.tok (t := .mark .colon) ?_ (Tok.apart_space _ _))
    exact Laid.space (ihn none rest ends)

end Term

end Splice
