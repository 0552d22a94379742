import Mathlib
import Splice.Proofs.Keys
import Splice.Proofs.Opening
import Splice.Proofs.Substitution

/-!
# When quoted text is taken literally

A text in quotes that cannot be read is a string of what is between the quotes. Whether it can be
read is decided in plain modules, and an expression that suspends counts as unreadable there, while
the expression that is put in is read in the language of the program. So text that is an expression
of the program may still be taken literally; the main statement says exactly when.
-/
namespace Splice

/-- The text by which a configured value is classified: its own, or that of the variable to which it
refers. -/
def Value.content? (env : Environment) : Value → Option String
  | .text s =>
    match Environment.reference? s with
    | some name => env.get? name
    | none => some s
  | _ => none

theorem Replacement.resolve_of_content {env : Environment} {v : Value} {text : String}
    (content : v.content? env = some text) : resolve env v = .resolved (classify text) := by
  cases v with
  | text s =>
    unfold Value.content? at content
    unfold resolve
    cases reference : Environment.reference? s with
    | some name =>
      simp only [reference] at content ⊢
      simp only [content]
    | none =>
      simp only [reference] at content ⊢
      rw [Option.some.inj content]
  | bool b => cases content
  | number d => cases content

section Quoted

variable {l : Language} {text : String} {p : Parsed} {e e' : Node}
  (quoted : isQuoted text.toList = true) (read : parse l (inParens text) = .ok p)
  (sole : p.tree.soleExpression? = some e)

include quoted read sole

/-- An expression of a language is unreadable in it only if it suspends. -/
theorem isNone_parseExpression : (parseExpression l text).isNone = e.suspends := by
  rw [parseExpression_of_sole (isEmpty_trim_quoted quoted) read sole]
  cases e.suspends <;> rfl

/-- What is no literal in one language is none in plain modules. -/
theorem not_isText_plain (other : e.form.isText = false)
    (plain : parseExpression .plain text = some e') : e'.form.isText = false := by
  obtain ⟨p', read', sole', -⟩ := parseExpression_inv plain
  rcases sole_cases quoted read' sole' with larger | ⟨form, span, rfl, literal⟩
  · exact larger.isText
  · obtain rfl := (literal.language quoted rfl l).sole quoted read sole
    exact other

end Quoted

namespace Pass

variable {p : Pass} {n : Node} {v : Value} {text : String} {program : Parsed} {e : Node}

/-- What becomes of a match whose value is a quoted text. -/
theorem walk_of_content (hit : p.isMatch n = true) (found : p.table.lookup n.render = some v)
    (content : v.content? p.environment = some text) :
    p.walk n = match (Replacement.classify text).build p.language n.span with
      | some b => (b, { replaced := 1 })
      | none => (n, { rejected := 1 }) := by
  obtain ⟨w, same, outcome⟩ := p.outcomeAt_of_match hit
  obtain rfl : w = v := Option.some.inj (same.symm.trans found)
  obtain ⟨form, place, spans, cs⟩ := n
  rw [walk, outcome, outcomeOf, Replacement.resolve_of_content content]
  dsimp only
  cases (Replacement.classify text).build p.language (Node.mk form place spans cs).span <;> rfl

/-- A match whose value is a quoted text, which is an expression of the program's language and no
literal, is replaced by the raw text exactly if plain modules cannot read the text, or only as an
expression that suspends. Otherwise it is replaced by the expression, or kept if that suspends. -/
theorem walk_quoted_expression (hit : p.isMatch n = true)
    (found : p.table.lookup n.render = some v) (content : v.content? p.environment = some text)
    (quoted : isQuoted text.toList = true) (read : parse p.language (inParens text) = .ok program)
    (sole : program.tree.soleExpression? = some e) (other : e.form.isText = false) :
    p.walk n =
        (if (parseExpression .plain text).isNone then
          (.mk (.string (unquoted text) false) .value n.span [], { replaced := 1 })
        else if e.suspends then (n, { rejected := 1 })
        else (e.respan n.span, { replaced := 1 })) ∧
      (p.language = .plain → (parseExpression .plain text).isNone = e.suspends) := by
  refine ⟨?_, fun plain => isNone_parseExpression quoted (plain ▸ read) sole⟩
  rw [walk_of_content hit found content]
  cases plain : parseExpression .plain text with
  | none =>
    have raw : Replacement.classify text = .string (unquoted text) := by
      rw [Replacement.classify_of_quoted quoted, Replacement.classifyQuoted, plain]
    rw [raw]
    rfl
  | some e' =>
    have whole := not_isText_plain quoted read sole other plain
    have kept := Replacement.classify_of_not_isText quoted plain whole
    rw [kept, Replacement.build, parseExpression_of_sole (isEmpty_trim_quoted quoted) read sole]
    cases e.suspends <;> rfl

/-- A sum of two strings begins and ends with a quote, and is read as what it is. -/
theorem walk_quoted_expression_sum :
    let p : Pass :=
      ⟨.ofConfig ⟨{ toList := [("K", .text "process.env.V")] }⟩, ⟨[("V", "'a' + 'b'")]⟩, .typedModule⟩
    let n : Node := .mk (.identifier "K") .value ⟨⟨4, 5⟩, []⟩ []
    ∃ program e, parse p.language (inParens "'a' + 'b'") = .ok program ∧
      program.tree.soleExpression? = some e ∧ p.walk n = (e.respan ⟨4, 5⟩, { replaced := 1 }) := by
  intro p n
  have hit : p.isMatch n = true := by decide +kernel
  have found : p.table.lookup n.render = some (.text "process.env.V") := by decide +kernel
  have content : (Value.text "process.env.V").content? p.environment = some "'a' + 'b'" := by
    decide +kernel
  have run : (parse p.language (inParens "'a' + 'b'")).toOption.any (fun program =>
      program.tree.soleExpression?.any fun e => !e.form.isText && !e.suspends) = true := by
    decide +kernel
  obtain ⟨program, read, shape⟩ := exists_ok_of_any run
  obtain ⟨e, sole, shape⟩ := (Option.any_eq_true _ _).mp shape
  rw [Bool.and_eq_true, Bool.not_eq_true', Bool.not_eq_true'] at shape
  have plain : (parseExpression .plain "'a' + 'b'").isNone = false := by decide +kernel
  have walk := (walk_quoted_expression hit found content (by decide) read sole shape.1).1
  rw [plain, shape.2] at walk
  exact ⟨program, e, read, sole, walk⟩

/-- A sum with an operand that is awaited is an expression of the program that suspends, but it
becomes a string. -/
theorem raw_text_replaces_await :
    let p : Pass := ⟨.ofConfig ⟨{ toList := [("K", .text "'a' + await 'b'")] }⟩, {}, .plain⟩
    let n : Node := .mk (.identifier "K") .value ⟨⟨4, 5⟩, []⟩ []
    p.isMatch n = true ∧ isQuoted "'a' + await 'b'".toList = true ∧
      ∃ program e, parse p.language (inParens "'a' + await 'b'") = .ok program ∧
        program.tree.soleExpression? = some e ∧ e.form.isText = false ∧ e.suspends = true ∧
        p.walk n = (.mk (.string "a' + await 'b" false) .value ⟨⟨4, 5⟩, []⟩ [], { replaced := 1 }) := by
  intro p n
  have hit : p.isMatch n = true := by decide +kernel
  have found : p.table.lookup n.render = some (.text "'a' + await 'b'") := by decide +kernel
  have raw : Replacement.classify "'a' + await 'b'" = .string "a' + await 'b" := by decide +kernel
  have run : (parse p.language (inParens "'a' + await 'b'")).toOption.any (fun program =>
      program.tree.soleExpression?.any fun e => !e.form.isText && e.suspends) = true := by
    decide +kernel
  obtain ⟨program, read, shape⟩ := exists_ok_of_any run
  obtain ⟨e, sole, shape⟩ := (Option.any_eq_true _ _).mp shape
  rw [Bool.and_eq_true, Bool.not_eq_true'] at shape
  have content : (Value.text "'a' + await 'b'").content? p.environment = some "'a' + await 'b'" := by
    decide +kernel
  refine ⟨hit, by decide, program, e, read, sole, shape.1, shape.2, ?_⟩
  rw [walk_of_content hit found content, raw]
  rfl

end Pass

end Splice
