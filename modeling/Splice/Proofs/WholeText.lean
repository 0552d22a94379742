import Splice.Proofs.Closing

/-!
# The parentheses around a text match

A text is read as an expression in parentheses that are put around it. However the text is made up,
if it is accepted then these two parentheses belong together: nothing in it closes the first one, and
nothing hides the last one. So the text is one whole expression.
-/
namespace Splice

variable {input : Source} {s t : ReadState input}

namespace Read

/-- The expression makes up the text from the parenthesis where the reader stands to the one that is
the last character: what is read after the first ends right before the last. -/
def IsWhole (s : ReadState input) (e : Node) : Prop :=
  ∃ (depth : Nat) (inner : Node) (s' t : ReadState input), s'.Back (advance s) ∧
    expression (descend depth) s' = .ok inner t ∧ e = wrapped inner ∧
    t.token.kind = .punct .rparen ∧ t.token.start + 1 = input.chars.length ∧ t.rest = []

/-- The sole expression of a text in parentheses makes up the text. -/
theorem program_whole {d : Nat} {tree e : Node} {l : Language} {cs : List Char}
    (begins : s.Begins l cs) (wrapped : ['\n', ')'] <:+ input.chars)
    (read : program (d + 8) s = .ok tree t) (clean : t.tokenProblems = [])
    (sole : tree.soleExpression? = some e) :
    IsWhole s e ∧ ∃ m, tree.children = [m] ∧ m.form = .expressionStatement ∧
      m.children = [.mk .parens .value ⟨⟨0, input.chars.length⟩, []⟩ [e]] := by
  obtain ⟨s', m, span, u, v, back, parens, one, form, children, stays, finishes, ends⟩ :=
    program_sole begins.paren begins.inert begins.pure read sole
  obtain ⟨-, inner, w, inside, close, rfl, whole⟩ := parenthesized_inv parens
  obtain ⟨-, -, rfl, rest⟩ := Node.mk.inj whole
  obtain rfl := (List.cons.inj rest).1
  have none : w.rest = [] :=
    (rest_nil_of_finishes (s := { w with context := (advance s').context }) wrapped stays finishes
      ends clean).1
  have last : w.token.start + 1 = input.chars.length := by
    rw [← (w.placed.mark _ close).length, none]
    rfl
  have stop : w.token.stop = input.chars.length := by
    rw [w.placed.stop, ← w.placed.leaves.length, none]
    rfl
  have start : s'.token.start = 0 := (congrArg Token.start back.token).trans begins.start
  refine ⟨⟨_, inner, _, w, ?_, inside, rfl, close, last, none⟩, m, one, form, ?_⟩
  · have context : (withinParens (advance s')).context = (advance s).context := by
      change { s'.context with allowIn := true, inDecorator := false } = s.context
      rw [back.context, begins.context]
    exact ⟨(like_withinParens _).toBeside.trans back.toBeside.advance, context⟩
  · rw [children, start, stop]

end Read

/-! ## Texts that close the parenthesis -/

theorem parseExpression_closed (l : Language) :
    ∀ text ∈ ["a); (b", "a)(b", "a) + (b", "a) => (b", "a) //"], parseExpression l text = none := by
  obtain ⟨typed, definition, elements, script⟩ := l
  simp only [List.forall_mem_cons]
  -- One text is read at a time, since each one takes the kernel some work in every language.
  refine ⟨?_, ?_, ?_, ?_, ?_⟩ <;>
  · cases typed <;> cases elements <;> revert definition script <;> decide +kernel

/-- Whatever is accepted is one whole expression: it is all that the added parentheses hold, and they
are all of the text around it. -/
theorem parseExpression_isWhole {l : Language} {text : String} {e : Node}
    (read : parseExpression l text = some e) :
    Read.IsWhole (.initial l (inParens text).toList) e ∧
      (∃ p m, parse l (inParens text) = .ok p ∧ p.tree.children = [m] ∧
        m.form = .expressionStatement ∧
        m.children = [.mk .parens .value ⟨⟨0, (inParens text).length⟩, []⟩ [e]]) ∧
      text ∉ ["a); (b", "a)(b", "a) + (b", "a) => (b", "a) //"] := by
  obtain ⟨p, parsed, sole, -⟩ := parseExpression_inv read
  obtain ⟨t, program, clean, -⟩ := parse_inv parsed
  have begins : (ReadState.initial l (inParens text).toList).Begins l
      (text.toList ++ ['\n', ')']) := by
    rw [toList_inParens]
    exact ReadState.initial_begins l _
  have wrapped := suffix_inParens text
  obtain ⟨whole, m, one, form, children⟩ := Read.program_whole begins wrapped program clean sole
  rw [← String.length_toList]
  refine ⟨whole, ⟨p, m, parsed, one, form, children⟩, fun early => ?_⟩
  rw [parseExpression_closed l text early] at read
  cases read

/-- A comment cannot hide the parenthesis that closes the text. -/
example : parseExpression .plain "a) // (b" = none := by decide +kernel

/-- A comment at the end belongs to the text, and its parenthesis closes nothing. -/
theorem parseExpression_isWhole_comment : ∃ e, parseExpression .plain "a /* ) */ // )" = some e ∧
    Read.IsWhole (.initial .plain (inParens "a /* ) */ // )").toList) e :=
  have ⟨e, read⟩ := Option.isSome_iff_exists.mp
    (show (parseExpression .plain "a /* ) */ // )").isSome = true by decide +kernel)
  ⟨e, read, (parseExpression_isWhole read).1⟩

end Splice
