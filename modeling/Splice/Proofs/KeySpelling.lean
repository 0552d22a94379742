import Splice.Proofs.KeyTerms
import Splice.Proofs.Spacing

/-!
# The spelling of keys

Most keys are names with member accesses and calls after them, or the types of these. Such a key may
be written with any blanks and line ends between its tokens, and in any number of parentheses: what
it is found by is one text, which is its own.
-/
namespace Splice

mutual

/-- A name, with member accesses and calls after it. -/
inductive Chain where
  | name (n : Name)
  | member (object : Chain) (field : Word)
  | call (callee : Chain) (arguments : List Key)

inductive Key where
  | chain (e : Chain)
  | typeof (e : Chain)

end

/-- What holds of chains and keys is proved from their parts. -/
theorem Key.induct {P : Chain → Prop} {Q : Key → Prop}
    (name : ∀ n, P (.name n))
    (member : ∀ o f, P o → P (.member o f))
    (call : ∀ f ks, P f → (∀ k ∈ ks, Q k) → P (.call f ks))
    (chain : ∀ e, P e → Q (.chain e))
    (typeof : ∀ e, P e → Q (.typeof e)) : (∀ e, P e) ∧ ∀ k, Q k := by
  have none : ∀ k ∈ ([] : List Key), Q k := by
    intro k absent
    cases absent
  have more (k : Key) (ks : List Key) (first : Q k) (rest : ∀ k ∈ ks, Q k) :
      ∀ l ∈ k :: ks, Q l := by
    intro l inside
    rcases List.mem_cons.mp inside with rfl | later
    · exact first
    · exact rest l later
  exact ⟨@Chain.rec P Q (fun ks => ∀ k ∈ ks, Q k) name member call chain typeof none more,
    @Key.rec P Q (fun ks => ∀ k ∈ ks, Q k) name member call chain typeof none more⟩

/-! ## Tokens and text -/

mutual

def Chain.toks : Chain → List Tok
  | .name n => [.word n.toWord]
  | .member o f => o.toks ++ [.mark .dot, .word f]
  | .call f ks => f.toks ++ .mark .lparen :: ([.mark .comma].intercalate (Key.toksAll ks) ++ [.mark .rparen])

def Key.toks : Key → List Tok
  | .chain e => e.toks
  | .typeof e => UnaryOp.typeof.tok :: e.toks

def Key.toksAll : List Key → List (List Tok)
  | [] => []
  | k :: ks => k.toks :: Key.toksAll ks

end

mutual

/-- The text without spaces around dots and parentheses, and with one space after a comma. -/
def Chain.text : Chain → List Char
  | .name n => n.text.toList
  | .member o f => o.text ++ '.' :: f.text.toList
  | .call f ks => f.text ++ '(' :: ([',', ' '].intercalate (Key.texts ks) ++ [')'])

def Key.text : Key → List Char
  | .chain e => e.text
  | .typeof e => UnaryOp.typeof.text.toList ++ ' ' :: e.text

def Key.texts : List Key → List (List Char)
  | [] => []
  | k :: ks => k.text :: Key.texts ks

end

def Chain.shape : Chain → Shape
  | .name _ => .identifier
  | .member _ _ => .member
  | .call _ _ => .call

def Key.shape : Key → Shape
  | .chain e => e.shape
  | .typeof _ => .unary

/-! ## Keys as terms -/

mutual

def Chain.term : Chain → Term
  | .name n => .name n
  | .member o f => .member o.term f
  | .call f ks => .call f.term (Key.terms ks)

def Key.term : Key → Term
  | .chain e => e.term
  | .typeof e => .unary .typeof e.term

def Key.terms : List Key → List Term
  | [] => []
  | k :: ks => k.term :: Key.terms ks

end

namespace Key

theorem toksAll_eq (ks : List Key) : toksAll ks = ks.map toks := by
  induction ks with
  | nil => rfl
  | cons k ks ih => rw [toksAll, List.map_cons, ih]

theorem texts_eq (ks : List Key) : texts ks = ks.map text := by
  induction ks with
  | nil => rfl
  | cons k ks ih => rw [texts, List.map_cons, ih]

theorem terms_eq (ks : List Key) : terms ks = ks.map term := by
  induction ks with
  | nil => rfl
  | cons k ks ih => rw [terms, List.map_cons, ih]

end Key

/-- The tokens of arguments, with commas between them. -/
theorem Term.argumentToks_eq (as : List Term) :
    argumentToks as = [.mark .comma].intercalate (as.map toks) ∧
      ∀ a, a.toks ++ laterToks as = [.mark .comma].intercalate ((a :: as).map toks) := by
  induction as with
  | nil => exact ⟨rfl, fun a => by simp [laterToks, List.intercalate]⟩
  | cons b as ih =>
    refine ⟨by rw [argumentToks, ih.2], fun a => ?_⟩
    rw [laterToks, ih.2 b]
    simp [List.intercalate]

/-- The text of arguments, with a comma and a space between them. -/
theorem Term.argumentText_eq (as : List Term) :
    argumentText as = [',', ' '].intercalate (as.map (text none)) ∧
      ∀ a, text none a ++ laterText as = [',', ' '].intercalate ((a :: as).map (text none)) := by
  induction as with
  | nil => exact ⟨rfl, fun a => by simp [laterText, List.intercalate]⟩
  | cons b as ih =>
    refine ⟨by rw [argumentText, ih.2], fun a => ?_⟩
    rw [laterText, ih.2 b]
    simp [List.intercalate]

/-- A chain is never put in parentheses. -/
theorem Chain.isWrapped_term (e : Chain) {s : Strength} (loose : s.rank < Strength.new.rank) :
    e.term.isWrapped s = false := by
  have tight : Strength.new.rank ≤ e.term.level := by
    cases e <;> simp [term, Term.level, Strength.rank]
  simp only [Term.isWrapped, decide_eq_false_iff_not]
  omega

theorem Key.term_toks : (∀ e : Chain, e.term.toks = e.toks) ∧ ∀ k : Key, k.term.toks = k.toks := by
  refine Key.induct ?name ?member ?call ?chain ?typeof
  case name => exact fun n => rfl
  case member =>
    intro o f object
    rw [Chain.term, Term.toks, o.isWrapped_term (by decide), object]
    rfl
  case call =>
    intro f ks callee each
    have arguments : (terms ks).map Term.toks = toksAll ks := by
      rw [terms_eq, toksAll_eq, List.map_map]
      exact List.map_congr_left each
    rw [Chain.term, Term.toks, f.isWrapped_term (by decide), callee, (Term.argumentToks_eq _).1,
      arguments]
    rfl
  case chain => exact fun e same => same
  case typeof =>
    intro e same
    rw [term, Term.toks, e.isWrapped_term (by decide), same]
    rfl

theorem Key.term_text :
    (∀ (e : Chain) after, e.term.text after = e.text) ∧ ∀ k : Key, k.term.text none = k.text := by
  refine Key.induct (P := fun e => ∀ after, e.term.text after = e.text)
    (Q := fun k => k.term.text none = k.text) ?name ?member ?call ?chain ?typeof
  case name => exact fun n after => rfl
  case member =>
    intro o f object after
    rw [Chain.term, Term.text, o.isWrapped_term (by decide), Term.bracket]
    simp [object, Chain.text]
  case call =>
    intro f ks callee each after
    have arguments : (terms ks).map (Term.text none) = texts ks := by
      rw [terms_eq, texts_eq, List.map_map]
      exact List.map_congr_left each
    rw [Chain.term, Term.text, f.isWrapped_term (by decide), Term.bracket, (Term.argumentText_eq _).1,
      arguments]
    simp [callee, Chain.text]
  case chain =>
    intro e same
    rw [term, text]
    exact same none
  case typeof =>
    intro e same
    rw [term, Term.text, e.isWrapped_term (by decide), Term.bracket]
    simp [same, text, UnaryOp.isWord, UnaryOp.text]

/-- Keys have no runs of logical operators. -/
theorem Key.leans_term : (∀ e : Chain, e.term.leans = true) ∧ ∀ k : Key, k.term.leans = true := by
  refine Key.induct ?name ?member ?call ?chain ?typeof
  case name => exact fun n => rfl
  case member => exact fun o f object => object
  case call =>
    intro f ks callee each
    have arguments : ∀ a ∈ ks.map term, a.leans = true := by
      intro a inside
      obtain ⟨k, member, rfl⟩ := List.mem_map.mp inside
      exact each k member
    rw [Chain.term, Term.leans, callee, Term.leansAll_eq, terms_eq, List.all_eq_true.mpr arguments]
    rfl
  case chain => exact fun e same => same
  case typeof => exact fun e same => same

theorem mem_intercalate {α : Type} {separator : List α} {xss : List (List α)} {x : α}
    (inside : x ∈ separator.intercalate xss) : x ∈ separator ∨ ∃ xs ∈ xss, x ∈ xs := by
  induction xss with
  | nil => simp at inside
  | cons xs xss ih =>
    cases xss with
    | nil => exact .inr ⟨xs, by simp, by simpa using inside⟩
    | cons ys xss =>
      rw [List.intercalate_cons_cons, List.mem_append, List.mem_append] at inside
      rcases inside with (first | between) | later
      · exact .inr ⟨xs, by simp, first⟩
      · exact .inl between
      · rcases ih later with between | ⟨zs, among, inside⟩
        · exact .inl between
        · exact .inr ⟨zs, List.mem_cons_of_mem xs among, inside⟩

/-- No mark of a key opens type arguments. -/
theorem Key.not_angle : (∀ e : Chain, ∀ t ∈ e.toks, t.isAngle = false) ∧
    ∀ k : Key, ∀ t ∈ k.toks, t.isAngle = false := by
  refine Key.induct ?name ?member ?call ?chain ?typeof
  case name => simp [Chain.toks, Tok.isAngle]
  case member =>
    intro o f object t inside
    simp only [Chain.toks, List.mem_append, List.mem_cons, List.not_mem_nil, or_false] at inside
    rcases inside with inside | rfl | rfl
    · exact object t inside
    · rfl
    · rfl
  case call =>
    intro f ks callee each t inside
    simp only [Chain.toks, List.mem_append, List.mem_cons, List.not_mem_nil, or_false] at inside
    rcases inside with inside | rfl | inside | rfl
    · exact callee t inside
    · rfl
    · rcases mem_intercalate inside with comma | ⟨ts, among, inside⟩
      · obtain rfl := List.mem_singleton.mp comma
        rfl
      · rw [toksAll_eq] at among
        obtain ⟨k, member, rfl⟩ := List.mem_map.mp among
        exact each k member t inside
    · rfl
  case chain => exact fun e same => same
  case typeof =>
    intro e same t inside
    rcases List.mem_cons.mp inside with rfl | inside
    · rfl
    · exact same t inside

theorem Key.shape_term (k : Key) : k.term.node.form.shape = k.shape := by
  cases k with
  | chain e => cases e <;> rfl
  | typeof e => rfl

/-! ## One text for every spelling -/

/-- However a key is laid out, and however many parentheses are around it, its normal form is the text
of the key. The text is its own normal form. -/
theorem normalizeKey_spelled (k : Key) (pairs : Nat) {text : String}
    (laid : Laid (nest pairs k.toks) text.toList) :
    normalizeKey text = some (String.ofList k.text, k.shape) ∧
      normalizeKey (String.ofList k.text) = some (String.ofList k.text, k.shape) := by
  have normal (pairs : Nat) {text : String} (laid : Laid (nest pairs k.toks) text.toList) :
      normalizeKey text = some (String.ofList k.text, k.shape) := by
    rw [← Key.term_toks.2] at laid
    have form := normalizeKey_nested laid (by rw [Key.term_toks.2]; exact Key.not_angle.2 k)
    rwa [Term.regroup_of_leans _ (Key.leans_term.2 k), Key.term_text.2, Key.shape_term] at form
  refine ⟨normal pairs laid, normal 0 ?_⟩
  have own : Laid (k.term.toks ++ []) (k.term.text none ++ []) := by
    refine k.term.text_spells none (.done rfl) ?_
    intro c first
    cases first
  simpa [nest, Key.term_toks.2, Key.term_text.2] using own

/-- The type of a call, in parentheses, with a line end before the dot. -/
theorem normalizeKey_spelled_typeof :
    normalizeKey "( typeof a\n. if() )" = some ("typeof a.if()", .unary) ∧
      normalizeKey "typeof a.if()" = some ("typeof a.if()", .unary) := by
  have nothing : Laid [] [] := .done rfl
  have close : Laid [.mark .rparen] [' ', ')'] := (nothing.mark .rparen fun c => rfl).space
  have call : Laid [.mark .lparen, .mark .rparen, .mark .rparen] ['(', ')', ' ', ')'] :=
    (close.mark .rparen fun c => rfl).mark .lparen fun c => rfl
  have field := call.word ⟨"if", rfl⟩ (endsWord_cons (by decide) (by decide) _)
  have line : ['\n'].all isGapChar = true := by decide
  have dot := (field.space.tok (t := .mark .dot) rfl).gap line
  have object := dot.word ⟨"a", rfl⟩ (endsWord_cons (by decide) (by decide) _)
  have operand := (object.space.tok (UnaryOp.typeof.tok.apart_space _)).space
  exact normalizeKey_spelled (.typeof (.call (.member (.name ⟨⟨"a", rfl⟩, rfl, rfl⟩) ⟨"if", rfl⟩) [])) 1
    (operand.mark .lparen fun c => rfl)

end Splice
