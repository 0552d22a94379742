import Mathlib.Data.List.TakeWhile
import Splice.Define.Expression
import Splice.Proofs.Reading

/-!
# Texts that are one expression

An expression on its own is read in parentheses, as a program with a single statement. A text is
accepted exactly if this program has no faults and is nothing but the parentheses.
-/
namespace Splice

variable {input : Source}

/-! ## Blank texts -/

/-- A text that begins with a visible character is not blank. -/
theorem Blank.isEmpty_trim_cons {c : Char} (visible : isBlank c = false) (cs : List Char) :
    (trim (c :: cs)).isEmpty = false := by
  have shown : ¬ isBlank c = true := by simp [visible]
  have kept : (c :: cs).reverse.dropWhile isBlank ≠ [] := by
    intro nothing
    exact shown (List.dropWhile_eq_nil_iff.mp nothing c (by simp))
  rw [trim, trimStart, List.dropWhile_cons_of_neg shown, trimEnd]
  simpa using kept

/-! ## Programs that are one pair of parentheses -/

/-- At the end of the text a statement needs no semicolon. -/
theorem Read.endStatement_eof {t : ReadState input} (ends : t.token.kind = .eof) :
    endStatement t = .ok () t := by
  have canEnd : canEnd t = .ok true t := by
    unfold canEnd
    simp only [token_bind, ends]
    rfl
  have noSemicolon : eat .semicolon t = .ok false t := by
    unfold eat
    simp only [isAt_bind, ends]
    rfl
  unfold endStatement
  rw [bind_ok canEnd]
  simp only [if_true]
  rw [bind_ok noSemicolon]
  rfl

/-- If parentheses are read up to the end of the text, they are a statement. -/
theorem Read.statement_of_parens {d : Nat} {s t : ReadState input} {m : Node}
    (paren : s.token.kind = .punct .lparen) (inert : s.token.inert = false)
    (read : descend d (.assignment true) s = .ok m t) (parens : m.form = .parens)
    (ends : t.token.kind = .eof) :
    descend (d + 2) (.statement false) s =
      .ok (.mk .expressionStatement .part ⟨⟨s.token.start, t.lastStop⟩, []⟩ [m]) t := by
  have whole : descend (d + 1) .expression s = .ok m t := by
    change expression (descend d) s = _
    unfold expression
    simp only [start_bind]
    rw [bind_ok read]
    simp only [isAt_bind, ends]
    rfl
  have plain : expressionStatement (descend (d + 1)) s =
      .ok (.mk .expressionStatement .part ⟨⟨s.token.start, t.lastStop⟩, []⟩ [m]) t := by
    unfold expressionStatement
    simp only [start_bind]
    rw [bind_ok whole]
    simp only [parens]
    rw [bind_ok (endStatement_eof ends)]
    rfl
  change statement (descend (d + 1)) false s = _
  unfold statement
  simp only [token_bind, paren]
  rw [bind_ok plain]
  simp only [inert, Bool.false_eq_true, if_false]
  rfl

/-- If parentheses are read up to the end of the text, they are the whole program. -/
theorem Read.program_of_parens {d : Nat} {s t : ReadState input} {m : Node}
    (paren : s.token.kind = .punct .lparen) (inert : s.token.inert = false)
    (read : descend d (.assignment true) s = .ok m t) (parens : m.form = .parens)
    (ends : t.token.kind = .eof) :
    program (d + 2) s = .ok (.mk (.program none t.language.elements) .part ⟨⟨0, t.size⟩, []⟩
      [.mk .expressionStatement .part ⟨⟨s.token.start, t.lastStop⟩, []⟩ [m]]) t := by
  let only : Node := .mk .expressionStatement .part ⟨⟨s.token.start, t.lastStop⟩, []⟩ [m]
  have sole : descend (d + 2) (.statement false) s = .ok only t :=
    statement_of_parens paren inert read parens ends
  have first : nextStatement (descend (d + 2)) true [] true s = .ok (.more ([only], false)) t := by
    have ordinary : asDirective t.source only = none := by
      simp only [asDirective, only, Node.form, Node.children]
      split
      next v h string => cases parens.symm.trans string
      next => rfl
    unfold nextStatement
    simp only [kind_bind, paren]
    change (descend (d + 2) (.statement false) >>= fun n => _) s = _
    rw [bind_ok sole]
    simp only [if_true, get_bind, ordinary]
    rfl
  have second : nextStatement (descend (d + 2)) true [only] false t =
      .ok (.done ([only], false)) t := by
    unfold nextStatement
    simp only [kind_bind, ends]
    rfl
  have items : statements (descend (d + 2)) true s = .ok [only] t := by
    unfold statements
    rw [bind_apply, iterate_apply, repeatFor_more (b := ([only], false)) first,
      repeatFor_done (b := ([only], false)) second]
    rfl
  unfold program
  simp only [token_bind, paren, pure_bind_apply]
  rw [bind_ok items]
  rfl

/-! ## Faults -/

theorem ReadState.faults_nil {s : ReadState input} {last repeated : List Problem}
    (none : s.faults last repeated = []) : s.tokenProblems = [] ∧ s.problems = [] := by
  unfold faults at none
  dsimp only at none
  split at none
  · cases none
  · simp only [List.append_eq_nil_iff, List.reverse_eq_nil_iff] at none
    exact none.1.1.1

/-- A text that can be read has no faults. -/
theorem parse_inv {l : Language} {source : String} {p : Parsed} (read : parse l source = .ok p) :
    ∃ t, Read.program (16 * (source.toList.length + 1) + 64) (.initial l source.toList) =
      .ok p.tree t ∧ t.tokenProblems = [] ∧ t.problems = [] := by
  unfold parse at read
  dsimp only at read
  split at read
  · cases read
  next tree t program =>
    split at read
    next none =>
      cases read
      exact ⟨t, program, ReadState.faults_nil none⟩
    · cases read

/-- A text without faults can be read. -/
theorem parse_of_program {l : Language} {source : String} {tree : Node}
    {t : ReadState ⟨source.toList⟩}
    (read : Read.program (16 * (source.toList.length + 1) + 64) (.initial l source.toList) =
      .ok tree t)
    (tokenProblems : t.tokenProblems = []) (problems : t.problems = []) (defaults : t.defaults = [])
    (exports : exportProblems tree.children = []) :
    parse l source = .ok ⟨tree, t.trivia.comments.reverse⟩ := by
  have sound : t.faults [] (if l.typed then [] else exportProblems tree.children) = [] := by
    simp [ReadState.faults, tokenProblems, problems, defaults, exports]
  unfold parse
  simp only [read, sound]

/-! ## Expressions on their own -/

/-- What is accepted is the sole expression of the text in parentheses, and does not suspend. -/
theorem parseExpression_inv {l : Language} {text : String} {e : Node}
    (read : parseExpression l text = some e) :
    ∃ p, parse l (inParens text) = .ok p ∧ p.tree.soleExpression? = some e ∧
      e.suspends = false := by
  unfold parseExpression at read
  split at read
  · cases read
  · split at read
    · cases read
    next p parsed =>
      split at read
      next m sole =>
        split at read
        · cases read
        next calm =>
          cases read
          exact ⟨p, parsed, sole, by simpa using calm⟩
      · cases read

/-- The sole expression of the text in parentheses is accepted unless it suspends. -/
theorem parseExpression_of_sole {l : Language} {text : String} {p : Parsed} {e : Node}
    (shown : (Blank.trim text.toList).isEmpty = false) (parsed : parse l (inParens text) = .ok p)
    (sole : p.tree.soleExpression? = some e) :
    parseExpression l text = if e.suspends then none else some e := by
  unfold parseExpression
  simp only [shown, Bool.false_eq_true, if_false, parsed, sole]

end Splice
