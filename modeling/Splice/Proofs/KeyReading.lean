import Splice.Proofs.Closing
import Splice.Proofs.KeyTerms
import Splice.Proofs.Keys
import Splice.Proofs.ReadBack

/-!
# Keys and programs

Keys are read as typed modules, whatever the language of the program is. For terms and for literals
the language makes no difference, so a key that is one of these is found wherever the program has it.
Where an angle bracket could open type arguments it makes one.
-/
namespace Splice

/-! ## Literals -/

section Quoted

variable {l : Language} {text : String} {n : Node} (quoted : isQuoted text.toList = true)

include quoted

/-- After an accepted literal the text ends. -/
theorem IsLiteral.ends {form : Form} (literal : IsLiteral l text form)
    (read : Splice.parseExpression l text = some n) :
    (Read.advance (Read.advance (.initial l (inParens text).toList))).rest = [] ∧
      (Read.advance (Read.advance (.initial l (inParens text).toList))).tokenProblems = [] := by
  obtain ⟨q, inside, quote, begins⟩ := initial_quoted quoted
  obtain ⟨p, parsed, sole, -⟩ := parseExpression_inv read
  obtain ⟨t, program, clean, -⟩ := parse_inv parsed
  have opens := (begins l).opensParens quote
  obtain ⟨s, -, span, u, v, back, parens, -, -, -, stays, finishes, ends⟩ :=
    Read.program_sole opens.paren (begins l).inert (begins l).pure program sole
  obtain ⟨t', single, like⟩ := Read.parenthesized_text (opens.beside back.toBeside)
    (by rw [back.advance.kind, literal.single]) literal.sound
    (by rw [back.advance.advance.kind, literal.close])
  rw [single] at parens
  cases parens
  have here := like.toBeside.trans back.advance.advance.advance.toBeside
  have same : Read.Stays
      (Read.advance (Read.advance (Read.advance (.initial l (inParens text).toList)))) u :=
    ⟨here.problems, .inl ⟨here.token, here.rest, here.tokenProblems⟩⟩
  exact Read.rest_nil_of_finishes (suffix_inParens text) (same.trans stays) finishes ends clean

/-- A literal of a module is read as the same node in every language. -/
theorem parseExpression_literal (plain : l.script = false) (isText : n.form.isText = true)
    (read : parseExpression l text = some n) (l' : Language) : parseExpression l' text = some n := by
  obtain ⟨p, parsed, sole, -⟩ := parseExpression_inv read
  rcases sole_cases quoted parsed sole with larger | ⟨form, span, -, literal⟩
  · cases larger.isText.symm.trans isText
  · obtain ⟨token, -, near⟩ := literal.near quoted plain l'
    obtain ⟨none, clean⟩ := literal.ends quoted read
    have stands : (Read.advance (Read.advance (.initial l' (inParens text).toList))).Stands _ [] :=
      ⟨rfl, near.rest.symm.trans none, near.tokenProblems.symm.trans clean⟩
    have there := (literal.language quoted plain l').parseExpression quoted
      stands.advance_end.kind stands.advance_end.clean
    rw [there, literal.sole quoted parsed sole, literalNode, literalNode, token]

end Quoted

/-! ## Keys -/

/-- The key is a term, laid out in any way, without a mark that could open type arguments. -/
def IsPlainKey (key : String) : Prop :=
  ∃ e : Term, Laid e.toks key.toList ∧ ∀ t ∈ e.toks, t.isAngle = false

/-- Such a key is an expression in every language. -/
theorem IsPlainKey.read {key : String} (plain : IsPlainKey key) (l : Language) :
    ∃ n, parseExpression l key = some n ∧ normalizeKey key = some (n.render, n.shape) := by
  obtain ⟨e, laid, angles⟩ := plain
  obtain ⟨n, read, tree⟩ := parseExpression_term (l := l) laid fun _ => angles
  refine ⟨n, read, ?_⟩
  rw [normalizeKey_term laid angles, Node.render_term tree, Node.shape,
    Term.form_withoutParens tree]

/-- A configured key is found by its printed form. -/
theorem Table.lookup_isSome {c : Config} {key text : String} {v : Value} {shape : Shape}
    (configured : (key, v) ∈ c.replace.toList) (form : normalizeKey key = some (text, shape)) :
    ((ofConfig c).lookup text).isSome = true := by
  have found : (c.replace.toList.findSome? (entryFor text)).isSome = true := by
    rw [List.findSome?_isSome_iff]
    exact ⟨(key, v), configured, by simp [entryFor, form]⟩
  rw [lookup_ofConfig, Option.isSome_map]
  exact found

/-- A key that is a term or a literal means to the table what it means in a program of any language,
and is found there. -/
theorem normalizeKey_of_parseExpression {l : Language} {key : String} {n : Node}
    (read : parseExpression l key = some n)
    (alike : IsPlainKey key ∨
      l.script = false ∧ isQuoted key.toList = true ∧ n.form.isText = true) :
    normalizeKey key = some (n.render, n.shape) ∧
      ∀ (c : Config) (v : Value), (key, v) ∈ c.replace.toList →
        ((Table.ofConfig c).lookup n.render).isSome = true := by
  have form : normalizeKey key = some (n.render, n.shape) := by
    rcases alike with term | ⟨plain, quoted, isText⟩
    · obtain ⟨m, read', form⟩ := term.read l
      rw [read] at read'
      cases read'
      exact form
    · rw [normalizeKey, parseExpression_literal quoted plain isText read]
      rfl
  exact ⟨form, fun c v configured => Table.lookup_isSome configured form⟩

/-- A member access with blanks around its dot. -/
theorem normalizeKey_of_parseExpression_spaced :
    ∃ n, parseExpression .plain "a . b" = some n ∧ normalizeKey "a . b" = some (n.render, n.shape) := by
  have name : Laid [.word ⟨"b", rfl⟩] ['b'] := (Laid.done rfl).word ⟨"b", rfl⟩ nofun
  have access : Laid [.mark .dot, .word ⟨"b", rfl⟩] ['.', ' ', 'b'] := name.space.tok rfl
  have laid : Laid [.word ⟨"a", rfl⟩, .mark .dot, .word ⟨"b", rfl⟩] ['a', ' ', '.', ' ', 'b'] :=
    access.space.word ⟨"a", rfl⟩ (endsWord_cons (by decide) (by decide) _)
  have plain : IsPlainKey "a . b" := ⟨.member (.name ⟨⟨"a", rfl⟩, rfl, rfl⟩) ⟨"b", rfl⟩, laid, by decide⟩
  obtain ⟨n, read, -⟩ := plain.read .plain
  exact ⟨n, read, (normalizeKey_of_parseExpression read (.inl plain)).1⟩

/-- What is a comparison in plain programs is a call with type arguments as a key, and the table does
not find the comparison. -/
theorem normalizeKey_angle :
    ∃ n, parseExpression .plain "a<b>(c)" = some n ∧
      normalizeKey "a<b>(c)" ≠ some (n.render, n.shape) ∧
      (Table.ofConfig (({} : Config).insert "a<b>(c)" (.text "1"))).lookup n.render = none := by
  have run : (parseExpression .plain "a<b>(c)").any (fun n =>
      normalizeKey "a<b>(c)" != some (n.render, n.shape) &&
        ((Table.ofConfig (({} : Config).insert "a<b>(c)" (.text "1"))).lookup n.render).isNone) =
      true := by decide +kernel
  obtain ⟨n, read, differs⟩ := (Option.any_eq_true _ _).mp run
  obtain ⟨other, missing⟩ := (Bool.and_eq_true ..).mp differs
  exact ⟨n, read, bne_iff_ne.mp other, Option.isNone_iff_eq_none.mp missing⟩

end Splice
