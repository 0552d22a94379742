import Mathlib
import Splice.Proofs.Enclosed
import Splice.Proofs.Parentheses
import Splice.Proofs.Phrases

/-!
# Literals in parentheses

A string, or a template without substitutions, is a single token. Between parentheses it is read as
the whole expression exactly if the closing parenthesis comes right after this token.
-/
namespace Splice

variable {input : Source}

/-- The literal that a token is read as: a string, or a template without substitutions. -/
def TokenKind.text? : TokenKind → Option Form
  | .string v h => some (.string v h)
  | .template .whole q => some (.template [q])
  | _ => none

/-- The stretches of a literal that is a single token; those of a template have its text as well. -/
def Token.literalSpans (t : Token) : Spans where
  own := ⟨t.start, t.stop⟩
  inner := match t.kind with
    | .template _ _ => [Read.quasiSpan t]
    | _ => []

/-- A template with an invalid escape, which only a tag allows. -/
def Form.isFaulty : Form → Bool
  | .template [q] => q.cooked.isNone
  | _ => false

namespace Read

variable {go : Descend} {s t u : ReadState input} {form : Form} {n m e : Node}

/-! ## Single tokens -/

theorem bracketed_of_text (text : s.token.kind.text? = some form) :
    isBracketed s.token.kind = true := by
  revert text
  cases s.token.kind with
  | string v h => exact fun _ => rfl
  | template part q => exact fun _ => rfl
  | _ => nofun

theorem isText_of_text (text : s.token.kind.text? = some form) : form.isText = true := by
  revert text
  cases s.token.kind with
  | string v h =>
    intro text
    cases text
    rfl
  | template part q =>
    cases part with
    | whole =>
      intro text
      cases text
      rfl
    | _ => nofun
  | _ => nofun

/-- A template without substitutions; an invalid escape in it is a fault. -/
theorem templatePieces_whole {q : Quasi} (kind : s.token.kind = .template .whole q)
    (substitution : Read Node) :
    ∃ t, templatePieces substitution true s = .ok ([(q, quasiSpan s.token)], []) t ∧ t.token = (advance s).token ∧
      t.lastStop = s.token.stop ∧ (q.cooked.isNone = false → t = advance s) ∧
      (q.cooked.isNone = true → t.problems ≠ []) := by
  have moved (s' : ReadState input) (same : s'.token = s.token) : bump s' = .ok () (advance s') :=
    bump_bracketed (by rw [same, kind]; rfl)
  unfold templatePieces
  cases faulty : q.cooked.isNone with
  | false =>
    refine ⟨advance s, ?_, rfl, rfl, fun _ => rfl, nofun⟩
    simp only [token_bind, kind, faulty, Bool.and_false, Bool.false_eq_true, if_false,
      pure_bind_apply]
    rw [bind_ok (moved s rfl)]
    rfl
  | true =>
    let noted : ReadState input := { s with problems := .templateEscape :: s.problems }
    have note : note .templateEscape s = .ok () noted := rfl
    refine ⟨advance noted, ?_, rfl, rfl, nofun, fun _ => List.cons_ne_nil _ _⟩
    simp only [token_bind, kind, faulty, Bool.and_true, if_true]
    rw [bind_ok note, bind_ok (moved noted rfl)]
    rfl

/-- The literal is the whole operand. -/
theorem primary_text (go : Descend) (text : s.token.kind.text? = some form) :
    ∃ t, primary go s = .ok (.mk form .value s.token.literalSpans []) t ∧
      t.token = (advance s).token ∧ (form.isFaulty = false → t = advance s) ∧
      (form.isFaulty = true → t.problems ≠ []) := by
  cases kind : s.token.kind with
  | string v h =>
    rw [kind] at text
    obtain rfl : Form.string v h = form := Option.some.inj text
    refine ⟨advance s, ?_, rfl, fun _ => rfl, nofun⟩
    unfold primary literal
    simp only [kind_bind, kind, start_bind]
    rw [bind_ok (bump_bracketed (by rw [kind]; rfl)), Token.literalSpans, kind]
    rfl
  | template part q =>
    cases part with
    | whole =>
      rw [kind] at text
      obtain rfl : Form.template [q] = form := Option.some.inj text
      obtain ⟨t, pieces, token, stop, sound, faulty⟩ := templatePieces_whole kind
        (enclosed (go .expression))
      refine ⟨t, ?_, token, sound, faulty⟩
      unfold primary templateLiteral
      simp only [kind_bind, kind, start_bind]
      rw [bind_ok pieces, value_apply, stop, Token.literalSpans, kind]
      rfl
    | _ =>
      rw [kind] at text
      cases text
  | _ =>
    rw [kind] at text
    cases text

/-- A template with substitutions has at least two pieces. -/
theorem templatePieces_head {q : Quasi} {substitution : Read Node} {checked : Bool}
    {r : List (Quasi × Span) × List Node} (kind : s.token.kind = .template .head q)
    (read : templatePieces substitution checked s = .ok r t) : 2 ≤ r.1.length := by
  unfold templatePieces at read
  simp only [token_bind, kind] at read
  obtain ⟨-, u, -, read⟩ := bind_inv read
  obtain ⟨-, u, -, read⟩ := bind_inv read
  obtain ⟨first, u, -, read⟩ := bind_inv read
  obtain ⟨-, u, -, read⟩ := bind_inv read
  obtain ⟨pieces, u, run, last⟩ := bind_inv read
  obtain ⟨rfl, rfl⟩ := pure_inv last
  rw [List.length_reverse]
  -- the loop ends with a closing piece, and the opening one is there from the start
  refine repeatFor_ends (P := fun r => 1 ≤ r.1.length) (Q := fun r => 2 ≤ r.1.length) ?_ _
    (by simp) run
  intro a s r t some read
  simp only [token_bind] at read
  cases kind : s.token.kind with
  | template part q =>
    cases part with
    | middle =>
      simp only [kind] at read
      obtain ⟨-, u, -, read⟩ := bind_inv read
      obtain ⟨-, u, -, last⟩ := bind_inv read
      obtain ⟨rfl, rfl⟩ := pure_inv last
      exact .inl ⟨_, rfl, by simp⟩
    | tail =>
      simp only [kind] at read
      obtain ⟨-, u, -, read⟩ := bind_inv read
      obtain ⟨-, u, -, last⟩ := bind_inv read
      obtain ⟨rfl, rfl⟩ := pure_inv last
      exact .inr ⟨_, rfl, by simpa using some⟩
    | _ =>
      simp only [kind] at read
      obtain ⟨e, u, -, read⟩ := bind_inv read
      obtain ⟨-, u, -, last⟩ := bind_inv read
      obtain ⟨rfl, rfl⟩ := pure_inv last
      exact .inl ⟨_, rfl, some⟩
  | eof =>
    simp only [kind] at read
    cases read
  | _ =>
    simp only [kind] at read
    obtain ⟨e, u, -, read⟩ := bind_inv read
    obtain ⟨-, u, -, last⟩ := bind_inv read
    obtain ⟨rfl, rfl⟩ := pure_inv last
    exact .inl ⟨_, rfl, some⟩

/-- Without a literal, such a token begins a template with substitutions at most. -/
theorem primary_larger (kind : isBracketed s.token.kind = true)
    (paren : s.token.kind ≠ .punct .lparen) (text : s.token.kind.text? = none)
    (read : primary go s = .ok n t) : Larger n := by
  unfold primary at read
  cases here : s.token.kind with
  | template part q =>
    cases part with
    | head =>
      simp only [kind_bind, here] at read
      unfold templateLiteral at read
      simp only [start_bind] at read
      obtain ⟨⟨qs, es⟩, u, pieces, last⟩ := bind_inv read
      have two := templatePieces_head here pieces
      obtain ⟨a, b, rest, rfl⟩ : ∃ a b rest, qs = a :: b :: rest := by
        match qs, two with
        | a :: b :: rest, _ => exact ⟨a, b, rest, rfl⟩
      exact value_larger rfl last
    | whole =>
      rw [here] at text
      cases text
    | _ =>
      simp only [kind_bind, here] at read
      exact (unexpected_inv read).elim
  | string v h =>
    rw [here] at text
    cases text
  | broken =>
    simp only [kind_bind, here] at read
    exact (unexpected_inv read).elim
  | punct p =>
    cases p with
    | lparen => exact absurd here paren
    | _ =>
      rw [here] at kind
      cases kind
  | _ =>
    rw [here] at kind
    cases kind

/-! ## Where an expression ends -/

section Closed

variable (closed : s.token.kind.closes = true)

include closed

theorem follows_of_closes_kind : s.token.kind.follows = true := by
  rw [TokenKind.follows, closed]
  rfl

theorem closes_ne {k : TokenKind} (other : k.closes = false) : (s.token.kind == k) = false := by
  refine beq_false_of_ne fun same => ?_
  rw [same, other] at closed
  cases closed

theorem callRest_closed (start : Nat) : callRest go start n false s = .ok (n, false) s := by
  have none : memberStep go start n false s = .ok none s :=
    memberStep_none go start n false (.inl (follows_of_closes_kind closed)) fun _ =>
      ⟨by simpa using closes_ne closed (k := .punct .lt) rfl,
        by simpa using closes_ne closed (k := .punct .shl) rfl,
        by simpa using closes_ne closed (k := .punct .shlEq) rfl⟩
  have accesses : memberRest go start n false s = .ok (n, false) s :=
    repeatFor_done (memberRound_done go start (n, false) none) _
  have round : callRound go start (n, false) s = .ok (.done (n, false)) s := by
    unfold callRound
    rw [bind_ok accesses]
    exact callStep_done go start n (follows_of_closes_kind closed)
  exact repeatFor_done round _

theorem binaryRest_closed (start : Nat) (above : Strength) :
    binaryRest go start n above s = .ok n s := by
  have same : joined s = s := by
    unfold joined
    split
    next angle => simpa [angle] using closes_ne closed (k := .punct .gt) rfl
    next => rfl
  have none : operatorOf s.token.kind = none := by
    revert closed
    cases s.token.kind with
    | punct p => cases p <;> decide
    | word w =>
      intro closed
      cases closed
    | _ => exact fun _ => rfl
  have round : binaryRound go start above n s = .ok (.done n) s := by
    unfold binaryRound
    simp only [joinMark_bind, same, kind_bind, none]
    rfl
  exact repeatFor_done round _

theorem assignmentRest_closed {token : Token} (inert : token.inert = false)
    (pure : token.pure = false) (resultType : Bool) :
    assignmentRest go token n resultType s = .ok n s := by
  rw [assignmentRest_conditional n resultType inert pure (.inl closed)]
  unfold conditionalRest
  rw [bind_ok (eat_other (closes_ne closed rfl))]
  rfl

end Closed

theorem leftHandSide_closed (first : primary go s = .ok n t) (closed : t.token.kind.closes = true) :
    leftHandSide go s = .ok n t := by
  unfold leftHandSide
  simp only [start_bind]
  rw [bind_ok first, bind_ok (callRest_closed closed _)]
  rfl

theorem updateExpression_closed (kind : isBracketed s.token.kind = true)
    (first : primary go s = .ok n t) (closed : t.token.kind.closes = true) :
    updateExpression go s = .ok n t := by
  have update : updateOf t.token.kind = none := by
    revert closed
    cases t.token.kind with
    | punct p => cases p <;> decide
    | _ => simp [updateOf]
  unfold updateExpression
  simp only [start_bind, kind_bind, updateOf_bracketed kind, isAt_bind,
    bracketed_ne kind (k := .punct .lt) rfl, language_bind, Bool.false_and, Bool.false_eq_true,
    if_false]
  rw [bind_ok (leftHandSide_closed first closed)]
  simp only [kind_bind, update]
  rfl

/-- An operand after which the expression ends is the whole expression. -/
theorem assignment_closed {d : Nat} {resultType : Bool} {P : ReadState input → Prop}
    (kind : isBracketed s.token.kind = true)
    (next : s.token.kind = .punct .lparen → isBracketed (advance s).token.kind = true)
    (inert : s.token.inert = false) (pure : s.token.pure = false)
    (first : ∀ s', s'.Like s →
      ∃ t, primary (descend d) s' = .ok n t ∧ t.token.kind.closes = true ∧ P t) :
    ∃ t, descend (d + 3) (.assignment resultType) s = .ok n t ∧ P t := by
  obtain ⟨s', like, same⟩ := assignment_bracketed kind (descend (d + 2)) resultType next
  have kind' : isBracketed s'.token.kind = true := by rw [like.kind, kind]
  obtain ⟨t, operand, closed, holds⟩ := first s' like
  have unary : descend (d + 1) .unary s' = .ok n t := by
    change unaryExpression (descend d) s' = _
    rw [unaryExpression_bracketed kind', updateExpression_closed kind' operand closed]
  have binary : descend (d + 2) (.binary .comma) s' = .ok n t := by
    change binaryExpression (descend (d + 1)) .comma s' = _
    rw [binaryExpression_bracketed kind', bind_ok unary, binaryRest_closed closed]
  refine ⟨t, ?_, holds⟩
  change assignment (descend (d + 2)) resultType s = _
  rw [same, bind_ok binary, assignmentRest_closed closed inert pure]

/-! ## Parentheses -/

/-- A single item before the closing parenthesis. -/
theorem separated_closed {item : Read Node} (some : atClose .rparen s = .ok false s)
    (read : item s = .ok n t) (close : t.token.kind = .punct .rparen) :
    separated .rparen .comma item s = .ok ([n], false) t := by
  have last : nextItem .rparen .comma item [n] t = .ok (.done ([n], false)) t := by
    have closes : atClose .rparen t = .ok true t := by
      unfold atClose
      simp only [kind_bind, close]
      rfl
    unfold nextItem
    rw [bind_ok closes]
    rfl
  unfold separated
  rw [bind_ok some]
  simp only [Bool.false_eq_true, if_false]
  rw [bind_ok read, bind_apply, iterate_apply, repeatFor_done (b := ([n], false)) last]
  rfl

theorem wrapped_of_text (text : n.form.isText = true) : wrapped n = n := by
  unfold wrapped
  split
  next form =>
    rw [form] at text
    cases text
  next => rfl

/-- The state stands at parentheses whose inside begins with a string or a template, or with text
that is no token, and no comment marks what is inside. -/
structure OpensParens (s : ReadState input) : Prop where
  paren : s.token.kind = .punct .lparen
  bracketed : isBracketed (advance s).token.kind = true
  single : (advance s).token.kind ≠ .punct .lparen
  inert : (advance s).token.inert = false
  pure : (advance s).token.pure = false

theorem OpensParens.beside (opens : OpensParens s) (beside : t.Beside s) : OpensParens t where
  paren := beside.kind.trans opens.paren
  bracketed := by rw [beside.advance.kind, opens.bracketed]
  single := by
    rw [beside.advance.kind]
    exact opens.single
  inert := by rw [beside.advance.token, opens.inert]
  pure := by rw [beside.advance.token, opens.pure]

theorem atClose_text {p : Punct} (text : s.token.kind.text? = some form) :
    atClose p s = .ok false s := by
  have other := bracketed_of_text text
  revert text other
  unfold atClose
  cases kind : s.token.kind with
  | string v h =>
    intro _ _
    simp only [kind_bind, kind]
    rfl
  | template part q =>
    intro _ _
    simp only [kind_bind, kind]
    rfl
  | _ => nofun

/-- The literal in parentheses. -/
theorem parenthesized_text {d : Nat} (opens : OpensParens s)
    (text : (advance s).token.kind.text? = some form) (sound : form.isFaulty = false)
    (close : (advance (advance s)).token.kind = .punct .rparen) :
    ∃ t, parenthesized (descend (d + 3)) s = .ok (.mk .parens .value
        ⟨⟨s.token.start, (advance (advance s)).token.stop⟩, []⟩
        [.mk form .value (advance s).token.literalSpans []]) t ∧
      t.Like (advance (advance (advance s))) := by
  have like := like_withinParens (advance s)
  obtain ⟨t, item, alike⟩ : ∃ t,
      descend (d + 3) (.assignment true) (withinParens (advance s)) =
        .ok (.mk form .value (advance s).token.literalSpans []) t ∧
      t.Like (advance (advance s)) :=
    assignment_closed opens.bracketed (fun paren => absurd paren opens.single) opens.inert
      opens.pure fun s' like' => by
        have alike := like'.trans like
        obtain ⟨t, first, -, moved, -⟩ :=
          primary_text (descend d) (s := s') (by rw [alike.kind, text])
        obtain rfl := moved sound
        rw [alike.token] at first
        exact ⟨_, first, by rw [alike.advance.kind, close]; rfl, alike.advance⟩
  have items := separated_closed (atClose_text (s := withinParens (advance s)) text) item
    (by rw [alike.kind, close])
  let back : ReadState input := { t with context := (advance s).context }
  have same : back.Like (advance (advance s)) :=
    (show back.Like t from ⟨⟨rfl, rfl, rfl, rfl, rfl, rfl, rfl⟩, rfl⟩).trans alike
  have inside : enclosed (separated .rparen .comma (descend (d + 3) (.assignment true))) (advance s) =
      .ok ([.mk form .value (advance s).token.literalSpans []], false) back := by
    unfold enclosed
    exact within_ok items
  have stop : back.token.stop = (advance (advance s)).token.stop := congrArg Token.stop same.token
  refine ⟨advance back, ?_, same.advance⟩
  unfold parenthesized
  simp only [start_bind]
  rw [bind_ok (expect_mark opens.paren)]
  simp only [start_bind]
  rw [bind_ok inside]
  simp only [Bool.false_eq_true, if_false]
  rw [bind_ok (expect_mark (same.kind.trans close)), wrapped_of_text (isText_of_text text), ← stop]
  rfl

/-- The item that a closing parenthesis follows: something larger than a literal, or just that. -/
theorem item_inv {d : Nat} (opens : OpensParens s)
    (read : descend (d + 3) (.assignment true) (withinParens (advance s)) = .ok e t) :
    Larger e ∨ ∃ form span u, (advance s).token.kind.text? = some form ∧
      e = .mk form .value span [] ∧ u.token = (advance (advance s)).token ∧ Stays u t ∧
      (form.isFaulty = true → u.problems ≠ []) := by
  obtain ⟨s', n, u, like, first, extends'⟩ := assignment_extends (s := withinParens (advance s))
    opens.bracketed (fun paren => absurd paren opens.single) opens.inert opens.pure read
  have like := like.trans (like_withinParens (advance s))
  cases text : (advance s).token.kind.text? with
  | none =>
    have larger : Larger n := primary_larger (by rw [like.kind, opens.bracketed])
      (by rw [like.kind]; exact opens.single) (by rw [like.kind, text]) first
    have known : ∀ w, n.form ≠ .identifier w := by
      intro w same
      rw [Larger, same] at larger
      cases larger
    rcases extends' known with ⟨rfl, -⟩ | more
    · exact .inl larger
    · exact .inl more
  | some form =>
    obtain ⟨v, one, token, -, faulty⟩ := primary_text (descend d) (s := s')
      (by rw [like.kind, text])
    rw [one] at first
    cases first
    have known : ∀ w, form ≠ .identifier w := by
      rintro w rfl
      exact absurd (isText_of_text text) (by simp [Form.isText])
    rcases extends' known with ⟨rfl, stays⟩ | more
    · exact .inr ⟨form, _, u, rfl, rfl, token.trans like.advance.token, stays, faulty⟩
    · exact .inl more

/-- What is read in parentheses: something larger than a literal, or a literal before the closing
parenthesis. -/
theorem parenthesized_literal {d : Nat} (opens : OpensParens s)
    (read : parenthesized (descend (d + 3)) s = .ok n t) :
    ∃ span e, n = .mk .parens .value span [e] ∧ (Larger e ∨
      ∃ form span', (advance s).token.kind.text? = some form ∧ e = .mk form .value span' [] ∧
        (advance (advance s)).token.kind = .punct .rparen ∧
        (form.isFaulty = true → t.problems ≠ [])) := by
  obtain ⟨-, e, v, inside, close, rfl, rfl⟩ := parenthesized_inv read
  refine ⟨_, _, rfl, ?_⟩
  obtain ⟨item, w, one, same⟩ := expression_inv inside
  rcases same with ⟨rfl, rfl⟩ | larger
  · rcases item_inv opens one with larger | ⟨form, span, u, text, rfl, token, stays, faulty⟩
    · exact .inl (wrapped_larger larger)
    · have same := (stays.same (by rw [close]; rfl)).1
      rw [wrapped_of_text (isText_of_text text)]
      refine .inr ⟨form, span, text, rfl, ?_, fun invalid => ?_⟩
      · rw [← token, ← same, close]
      · exact stays.problems ▸ faulty invalid
  · exact .inl (wrapped_larger larger)

/-! ## Programs -/

/-- A literal in parentheses that the text ends with is the whole program. -/
theorem program_text {d : Nat} (opens : OpensParens s) (inert : s.token.inert = false)
    (pure : s.token.pure = false) (text : (advance s).token.kind.text? = some form)
    (sound : form.isFaulty = false) (close : (advance (advance s)).token.kind = .punct .rparen)
    (ends : (advance (advance (advance s))).token.kind = .eof) :
    ∃ tree t, program (d + 8) s = .ok tree t ∧
      tree.soleExpression? =
        some (.mk form .value (advance s).token.literalSpans []) ∧
      exportProblems tree.children = [] ∧ t.Like (advance (advance (advance s))) := by
  let n : Node := .mk .parens .value ⟨⟨s.token.start, (advance (advance s)).token.stop⟩, []⟩
    [.mk form .value (advance s).token.literalSpans []]
  have operand (s' : ReadState input) (like : s'.Like s) :
      ∃ t, primary (descend (d + 3)) s' = .ok n t ∧ t.token.kind.closes = true ∧
        t.Like (advance (advance (advance s))) := by
    obtain ⟨t, read, like'⟩ := parenthesized_text (d := d) (opens.beside like.toBeside)
      (by rw [like.advance.kind, text]) sound (by rw [like.advance.advance.kind, close])
    rw [like.token, like.advance.token, like.advance.advance.token,
      ← primary_paren _ (like.kind.trans opens.paren)] at read
    have like := like'.trans like.advance.advance.advance
    exact ⟨t, read, by rw [like.kind, ends]; rfl, like⟩
  obtain ⟨t, read, like⟩ : ∃ t, descend (d + 6) (.assignment true) s = .ok n t ∧
      t.Like (advance (advance (advance s))) :=
    assignment_closed (by rw [opens.paren]; rfl) (fun _ => opens.bracketed) inert pure operand
  exact ⟨_, t, program_of_parens opens.paren inert read rfl (like.kind.trans ends), rfl, rfl, like⟩

end Read

end Splice
