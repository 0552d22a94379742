import Splice.Proofs.Precedence

/-!
# A name in parentheses

Up to the closing parenthesis a name in parentheses could also be the parameter of an arrow function,
so this is tried first. Without an arrow after the parenthesis the reader steps back, in typed and in
other sources alike.
-/
namespace Splice

variable {input : Source}

namespace Read

variable {st : ReadState input} {l : Language} {c : Context} {ts : List Tok}

/-! ## A name as a parameter -/

theorem peek_read {t u : Tok} (ready : st.Ready l c (t :: u :: ts)) (whole : st.token.kind = t.kind)
    (simple : u.late = []) :
    ∃ next st', peek st = .ok next st' ∧ next.kind = u.kind ∧ st'.Ready l c (t :: u :: ts) := by
  obtain ⟨st₁, moved, ready₁⟩ := ready.bumpName whole
  have read : (bumpName >>= fun _ => token) st = .ok st₁.token st₁ := by
    rw [bind_ok moved]
    rfl
  obtain ⟨st₂, seen, ready₂⟩ := ready.lookahead default read ready₁
  exact ⟨st₁.token, st₂, seen, ready₁.kind_eq simple, ready₂⟩

/-- A word before a closing parenthesis is no modifier. -/
theorem modifiers_none (w : Word) (ready : st.Ready l c (.word w :: .mark .rparen :: ts)) :
    ∃ st', modifiers st = .ok [] st' ∧ st'.Ready l c (.word w :: .mark .rparen :: ts) := by
  have kind : st.token.kind = .word w.text := ready.kind_eq rfl
  have first : ∃ st', nextModifier [] st = .ok (.done []) st' ∧
      st'.Ready l c (.word w :: .mark .rparen :: ts) := by
    unfold nextModifier
    simp only [kind_bind, kind]
    by_cases known : modifierWords.contains w.text = true
    · obtain ⟨next, st₁, seen, closes, ready₁⟩ := peek_read ready kind rfl
      have kind₁ : st₁.token.kind = .word w.text := ready₁.kind_eq rfl
      obtain ⟨next', st₂, seen', closes', ready₂⟩ := peek_read ready₁ kind₁ rfl
      refine ⟨st₂, ?_, ready₂⟩
      have other : isModifier w.text st₁ = .ok false st₂ := by
        unfold isModifier
        simp only [atWord_bind, kind₁, beq_self_eq_true, Bool.not_true, Bool.false_eq_true, if_false]
        rw [bind_ok seen']
        simp only [closes', Tok.kind]
        cases w.text == "get" || w.text == "set" <;> cases w.text == "static" <;> rfl
      have brace : (next.kind == .punct .lbrace) = false := by
        rw [closes]
        rfl
      simp only [known, Bool.not_true, Bool.false_eq_true, if_false]
      rw [bind_ok seen]
      simp only [brace, List.contains_nil, Bool.or_self, Bool.and_false, Bool.false_eq_true, if_false]
      rw [bind_ok other]
      rfl
    · refine ⟨st, ?_, ready⟩
      rw [Bool.not_eq_true] at known
      simp only [known]
      rfl
  obtain ⟨st', done, ready'⟩ := first
  refine ⟨st', ?_, ready'⟩
  unfold modifiers
  rw [bind_apply, iterate_apply, repeatFor_done done]
  rfl

/-- A name as a pattern. -/
theorem pattern_name {d : Nat} (n : Name) (ready : st.Ready l c (.word n.toWord :: ts)) :
    ∃ m st', descend (d + 1) .pattern st = .ok m st' ∧ st'.Ready l c ts := by
  have kind : st.token.kind = .word n.text := ready.kind_eq rfl
  obtain ⟨st', moved, ready'⟩ := ready.bumpName kind
  refine ⟨.mk (.bindingName n.text) .part ⟨⟨st.token.start, st.token.stop⟩, []⟩ [], st', ?_, ready'⟩
  have usable : checkName n.text st.context st = .ok () st := by
    have await : (n.text == "await") = false := beq_false_of_ne (n.text_ne (by decide))
    have yield : (n.text == "yield") = false := beq_false_of_ne (n.text_ne (by decide))
    unfold checkName
    simp only [await, yield, Bool.false_and, Bool.false_eq_true, if_false]
    rfl
  have word : bindingWord st = .ok (n.text, ⟨st.token.start, st.token.stop⟩) st' := by
    unfold bindingWord
    simp only [token_bind, kind, n.free, Bool.false_eq_true, if_false, context_bind]
    rw [bind_ok usable, bind_ok moved]
    rfl
  change pattern (descend d) st = _
  unfold pattern
  simp only [kind_bind, kind]
  unfold bindingPatternName
  rw [bind_ok word]
  rfl

/-! ## What stands in typed sources only -/

section Typed

variable {go : Descend}

theorem typeMark_none (other : (st.token.kind == .punct .colon) = false) :
    typeMark go st = .ok (.absent, []) st := by
  unfold typeMark
  simp only [isTyped_bind]
  cases st.language.typed with
  | false => rfl
  | true =>
    simp only [Bool.not_true, Bool.false_eq_true, if_false, start_bind]
    rw [bind_ok (eat_other other)]
    rfl

theorem resultMark_none (other : (st.token.kind == .punct .colon) = false) :
    resultMark go st = .ok (.absent, []) st := by
  unfold resultMark
  simp only [isTyped_bind]
  cases st.language.typed with
  | false => rfl
  | true =>
    simp only [Bool.not_true, Bool.false_eq_true, if_false, start_bind]
    rw [bind_ok (eat_other other)]
    rfl

theorem typeParameters_none (other : (st.token.kind == .punct .lt) = false) :
    typeParameters go st = .ok .absent st := by
  unfold typeParameters
  simp only [isTyped_bind]
  cases st.language.typed with
  | false => rfl
  | true =>
    simp only [Bool.not_true, Bool.false_eq_true, if_false, isAt_bind, other]
    rfl

theorem thisParameter_none (other : (st.token.kind == .word "this") = false) :
    thisParameter go st = .ok .absent st := by
  unfold thisParameter
  simp only [isTyped_bind, atWord_bind, other, Bool.and_false]
  rfl

end Typed

/-! ## A name as the only parameter -/

/-- A name without a type and without a default value. -/
theorem patternWithDefault_name {d : Nat} (n : Name)
    (ready : st.Ready l c (.word n.toWord :: .mark .rparen :: ts)) :
    ∃ m st', patternWithDefault (descend (d + 1)) st = .ok m st' ∧
      st'.Ready l c (.mark .rparen :: ts) := by
  obtain ⟨m, st', name, ready'⟩ := pattern_name (d := d) n ready
  have kind : st'.token.kind = .punct .rparen := ready'.kind_eq rfl
  have noQuestion : eat .question st' = .ok false st' := eat_other (by rw [kind]; rfl)
  have noDefault : eat .eq st' = .ok false st' := eat_other (by rw [kind]; rfl)
  have type : typeMark (descend (d + 1)) st' = .ok (.absent, []) st' :=
    typeMark_none (by rw [kind]; rfl)
  have binding : typedPattern (descend (d + 1)) true st =
      .ok (.mk (.binding false) .part ⟨⟨st.token.start, st'.lastStop⟩, []⟩ [m, .absent]) st' := by
    unfold typedPattern
    simp only [start_bind]
    rw [bind_ok name]
    simp only [isTyped_bind, Bool.true_and]
    cases st'.language.typed with
    | false =>
      change (typeMark (descend (d + 1)) >>= fun type => _) st' = _
      rw [bind_ok type]
      rfl
    | true =>
      simp only [if_true]
      rw [bind_ok noQuestion, bind_ok type]
      rfl
  refine ⟨.mk (.binding false) .part ⟨⟨st.token.start, st'.lastStop⟩, []⟩ [m, .absent], st', ?_, ready'⟩
  unfold patternWithDefault
  simp only [start_bind]
  rw [bind_ok binding]
  unfold withDefault
  rw [bind_ok noDefault]
  rfl

theorem parameter_name {d : Nat} (n : Name)
    (ready : st.Ready l c (.word n.toWord :: .mark .rparen :: ts)) :
    ∃ m st', parameter (descend (d + 1)) false st = .ok m st' ∧
      st'.Ready l c (.mark .rparen :: ts) := by
  have kind : st.token.kind = .word n.text := ready.kind_eq rfl
  have undecorated : decorators (descend (d + 1)) st = .ok [] st := by
    have done : nextDecorator (descend (d + 1)) [] st = .ok (.done []) st := by
      unfold nextDecorator
      simp only [isAt_bind, kind]
      rfl
    unfold decorators
    rw [bind_apply, iterate_apply, repeatFor_done done]
    rfl
  obtain ⟨st₁, unmodified, ready₁⟩ := modifiers_none n.toWord ready
  obtain ⟨m, st₂, bound, ready₂⟩ := patternWithDefault_name (d := d) n ready₁
  refine ⟨.mk (.parameter none false false) .part ⟨⟨st.token.start, st₂.lastStop⟩, []⟩ [.group [], m], st₂,
    ?_, ready₂⟩
  unfold parameter
  simp only [start_bind]
  rw [bind_ok undecorated]
  change (modifiers >>= fun ms => _) st = _
  rw [bind_ok unmodified]
  simp only [isTyped_bind]
  cases st₁.language.typed <;>
  · change (patternWithDefault (descend (d + 1)) >>= fun p => _) st₁ = _
    rw [bind_ok bound]
    rfl

theorem parameters_name {d : Nat} (n : Name)
    (ready : st.Ready l c (.mark .lparen :: .word n.toWord :: .mark .rparen :: ts)) :
    ∃ m st', parameters (descend (d + 1)) false st = .ok (.absent, m) st' ∧ st'.Ready l c ts := by
  obtain ⟨st₁, opened, ready₁⟩ := ready.expect (p := .lparen) rfl
  have kind₁ : st₁.token.kind = .word n.text := ready₁.kind_eq rfl
  have notThis : (TokenKind.word n.text == .word "this") = false := by
    refine beq_false_of_ne ?_
    intro same
    exact n.text_ne (by decide) (TokenKind.word.inj same)
  have this : thisParameter (descend (d + 1)) st₁ = .ok .absent st₁ :=
    thisParameter_none (by rw [kind₁, notThis])
  obtain ⟨m, st₂, read, ready₂⟩ := parameter_name (d := d) n ready₁
  have first : nextElement (descend (d + 1)) .rparen .restNotLast (parameter (descend (d + 1)) false)
      [] none true st₁ = .ok (.more ([m], none, false)) st₂ := by
    unfold nextElement
    rw [bind_ok (atClose_opens (.name n) kind₁)]
    simp only [Bool.false_eq_true, if_false, Bool.not_true, Option.isSome_none, isAt_bind, kind₁]
    change (parameter (descend (d + 1)) false >>= fun e => _) st₁ = _
    rw [bind_ok read]
    rfl
  have second : nextElement (descend (d + 1)) .rparen .restNotLast (parameter (descend (d + 1)) false)
      [m] none false st₂ = .ok (.done ([m], none, false)) st₂ := by
    unfold nextElement
    rw [bind_ok (atClose_rparen ready₂)]
    rfl
  have items : elementsWithRest (descend (d + 1)) .rparen .restNotLast
      (parameter (descend (d + 1)) false) st₁ = .ok [m] st₂ := by
    unfold elementsWithRest
    rw [bind_apply, iterate_apply, repeatFor_more (b := ([m], none, false)) first]
    rw [repeatFor_done (b := ([m], none, false)) second]
    rfl
  obtain ⟨st₃, closed, ready₃⟩ := ready₂.expect (p := .rparen) rfl
  refine ⟨.mk .parameters .part ⟨⟨st.token.start, st₃.lastStop⟩, []⟩ [m], st₃, ?_, ready₃⟩
  unfold parameters
  simp only [start_bind]
  rw [bind_ok opened, bind_ok this, bind_ok items, bind_ok closed]
  rfl

theorem expect_other (st : ReadState input) {p : Punct} (other : (st.token.kind == .punct p) = false) :
    ∃ q, expect p st = .error q st := by
  refine ⟨.expected p.text st.token.kind.text, ?_⟩
  unfold expect
  simp only [isAt_bind, other, Bool.false_eq_true, if_false, kind_bind]
  rfl

/-- Where parentheses or the text end, there is no arrow. -/
theorem arrow_ended (ready : st.Ready l c ts) (ends : ended ts) :
    ∃ p st', arrow st = .error p st' ∧ st'.trivia.comments = [] ∧ st'.defaults = [] := by
  have other : (st.token.kind == .punct .arrow) = false := by
    rcases ready.kind_ended ends with kind | kind <;> simp [kind]
  unfold arrow
  simp only [isFresh_bind]
  cases st.token.fresh with
  | false =>
    obtain ⟨q, fails⟩ := expect_other st other
    exact ⟨q, st, fails, ready.comments, ready.defaults⟩
  | true =>
    obtain ⟨q, fails⟩ :=
      expect_other { st with problems := .arrowLineBreak :: st.problems } (p := .arrow) other
    exact ⟨q, _, fails, ready.comments, ready.defaults⟩

section Head

variable (n : Name) (ends : ended ts)
  (ready : st.Ready l c (.mark .lparen :: .word n.toWord :: .mark .rparen :: ts))

include ends ready

/-- Without an arrow after the parenthesis no arrow function begins. -/
theorem arrowHead_name {d : Nat} :
    ∃ p st', arrowHead (descend (d + 1)) st = .error p st' ∧ st'.trivia.comments = [] ∧
      st'.defaults = [] := by
  have kind : st.token.kind = .punct .lparen := ready.kind_eq rfl
  have async : eatWord "async" st = .ok false st := by
    unfold eatWord
    simp only [atWord_bind, kind]
    rfl
  obtain ⟨r, st₁, parts, -, ready₁⟩ := ready.within (P := fun _ => True) (u := ts)
    (f := fun c => { c with inAsync := c.inAsync || false })
    (r := arrowSignature (descend (d + 1))) fun st' inner => by
        have kind' : st'.token.kind = .punct .lparen := inner.kind_eq rfl
        have noTypes : typeParameters (descend (d + 1)) st' = .ok .absent st' :=
          typeParameters_none (by rw [kind']; rfl)
        obtain ⟨m, st'', read, ready''⟩ := parameters_name (d := d) n inner
        have noColon : (st''.token.kind == .punct .colon) = false := by
          rcases ready''.kind_ended ends with kind | kind <;> simp [kind]
        refine ⟨(.absent, m, .absent, []), st'', ?_, trivial, ready''⟩
        unfold arrowSignature
        rw [bind_ok noTypes, bind_ok read]
        change (resultMark (descend (d + 1)) >>= fun result => _) st'' = _
        rw [bind_ok (resultMark_none noColon)]
        rfl
  obtain ⟨p, st₂, fails, comments, defaults⟩ := arrow_ended ready₁ ends
  refine ⟨p, st₂, ?_, comments, defaults⟩
  unfold arrowHead
  simp only [start_bind]
  rw [bind_ok async, bind_ok parts]
  rw [bind_apply, fails]

/-- The parameters of an arrow function are tried and given up. -/
theorem parenthesizedArrow_name {d : Nat} (resultType : Bool) :
    ∃ st', parenthesizedArrow (descend (d + 1)) resultType st = .ok none st' ∧
      st'.Ready l c (.mark .lparen :: .word n.toWord :: .mark .rparen :: ts) := by
  obtain ⟨st₃, guessed, ready₃⟩ := guessArrow_paren (g := .maybe) ready fun {st₁} ready₁ => by
    have kind₁ : st₁.token.kind = .word n.text := ready₁.kind_eq rfl
    obtain ⟨st₂, moved, ready₂⟩ := ready₁.bumpName kind₁
    have kind₂ : st₂.token.kind = .punct .rparen := ready₂.kind_eq rfl
    have name : isName (.word n.text) = true := by
      rw [isName, nameWord?, n.free]
      rfl
    have other : isName (.punct .rparen) = false := rfl
    refine ⟨_, st₂, ?_, ready₂⟩
    unfold guessParens
    simp only [kind_bind, kind₁]
    rw [bind_ok moved]
    simp only [kind_bind, kind₂, other, name, Bool.and_false, Bool.not_true, Bool.false_and,
      Bool.false_eq_true, if_false]
    rfl
  obtain ⟨p, st₄, fails, comments, defaults⟩ := arrowHead_name (d := d) n ends ready₃
  have tried : attempt (arrowHead (descend (d + 1))) st₃ = .ok none (restore st₃ st₄) := by
    unfold attempt
    rw [fails]
  have ready₄ := ready₃.restore comments defaults
  unfold parenthesizedArrow
  rw [bind_ok guessed]
  simp only [start_bind, get_bind]
  by_cases known : st₃.notArrow.contains st₃.token.start = true
  · exact ⟨st₃, by simp only [known, if_true]; rfl, ready₃⟩
  · refine ⟨{ restore st₃ st₄ with notArrow := st₃.token.start :: (restore st₃ st₄).notArrow }, ?_,
      { ready₄ with faces := ready₄.faces.congr rfl rfl rfl }⟩
    rw [Bool.not_eq_true] at known
    simp only [known, Bool.false_eq_true, if_false, get_bind]
    rw [bind_ok tried]
    rfl

end Head

end Read

end Splice
