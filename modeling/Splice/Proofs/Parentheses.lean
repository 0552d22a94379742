import Splice.Define.Expression
import Splice.Proofs.Larger

/-!
# Parentheses

Parentheses hold an expression, read from one parenthesis to the other. A text that begins with a
parenthesis and is nothing but parentheses around an expression has been read so: these parentheses
are the first ones, and after them there is at most a semicolon.
-/
namespace Splice

variable {input : Source}

namespace Read

variable {go : Descend} {s t u : ReadState input} {n m e : Node}

/-! ## Marks -/

theorem expect_mark {p : Punct} (here : s.token.kind = .punct p) :
    expect p s = .ok () (advance s) := by
  unfold expect
  simp only [isAt_bind, here, beq_self_eq_true, if_true]
  exact bump_mark here

theorem expect_inv {p : Punct} (read : expect p s = .ok () t) :
    s.token.kind = .punct p ∧ t = advance s := by
  by_cases here : s.token.kind = .punct p
  · rw [expect_mark here] at read
    cases read
    exact ⟨here, rfl⟩
  · unfold expect at read
    simp only [isAt_bind, beq_false_of_ne here] at read
    cases read

theorem atClose_inv {p : Punct} {close : Bool} (read : atClose p s = .ok close t) : t = s := by
  unfold atClose at read
  simp only [kind_bind] at read
  cases here : s.token.kind with
  | eof | broken =>
    simp only [here] at read
    exact (pure_inv read).2
  | _ =>
    simp only [here] at read
    exact (pure_inv read).2

/-! ## Sequences -/

/-- What expressions with commas between them make up. -/
def sequenced (span : Span) : List Node → Node
  | [e] => e
  | es => .mk .sequence .value span es

/-- One more expression after a comma. -/
def sequenceRound (go : Descend) (acc : List Node) : Read (Step (List Node)) := do
  if ← eat .comma then return .more ((← go (.assignment true)) :: acc) else return .done acc

/-- There is no further item, or no item after the separator, or one more. -/
theorem nextItem_inv {item : Read Node} {acc : List Node} {r : Step (List Node × Bool)}
    (read : nextItem .rparen .comma item acc s = .ok r t) :
    r = .done (acc, false) ∧ t = s ∨ r = .done (acc, true) ∨
      ∃ n, s.token.kind = .punct .comma ∧ item (advance s) = .ok n t ∧
        r = .more (n :: acc, false) := by
  unfold nextItem at read
  obtain ⟨close, u, here, rest⟩ := bind_inv read
  obtain rfl := atClose_inv here
  split at rest
  · exact .inl (pure_inv rest)
  · obtain ⟨_, v, separator, rest⟩ := bind_inv rest
    obtain ⟨comma, rfl⟩ := expect_inv separator
    simp only [isAt_bind] at rest
    split at rest
    · exact .inr (.inl (pure_inv rest).1)
    · obtain ⟨n, w, one, last⟩ := bind_inv rest
      obtain ⟨rfl, rfl⟩ := pure_inv last
      exact .inr (.inr ⟨n, comma, one, rfl⟩)

/-- Items up to the closing parenthesis are read like expressions with commas between them. -/
theorem items_sequence {step : List Node × Bool → Read (Step (List Node × Bool))}
    (each : ∀ acc comma,
      step (acc, comma) = nextItem .rparen .comma (go (.assignment true)) acc)
    (close : t.token.kind = .punct .rparen) (n : Nat) {acc es : List Node} {comma : Bool}
    (read : repeatFor step n (acc, comma) s = .ok (es, false) t) :
    repeatFor (sequenceRound go) n acc s = .ok es t ∧
      (es = acc ∧ t = s ∨ s.token.kind = .punct .comma ∧ acc.length < es.length) := by
  induction n generalizing acc comma s with
  | zero => cases read
  | succ n ih =>
    rw [repeatFor, each] at read
    obtain ⟨r, u, round, rest⟩ := bind_inv read
    rw [repeatFor]
    rcases nextItem_inv round with ⟨rfl, rfl⟩ | rfl | ⟨next, here, item, rfl⟩
    · obtain ⟨same, rfl⟩ := pure_inv rest
      obtain rfl : es = acc := (Prod.mk.inj same).1
      have noComma : eat .comma t = .ok false t := eat_other (by rw [close]; rfl)
      have ended : sequenceRound go es t = .ok (.done es) t := by
        unfold sequenceRound
        rw [bind_ok noComma]
        rfl
      rw [bind_ok ended]
      exact ⟨rfl, .inl ⟨rfl, rfl⟩⟩
    · cases (Prod.mk.inj (pure_inv rest).1).2
    · obtain ⟨loop, longer⟩ := ih rest
      have comma : eat .comma s = .ok true (advance s) := by
        unfold eat
        simp only [isAt_bind, here, beq_self_eq_true, if_true]
        rw [bind_ok (bump_mark here)]
        rfl
      have more : sequenceRound go acc s = .ok (.more (next :: acc)) u := by
        unfold sequenceRound
        rw [bind_ok comma]
        simp only [if_true]
        rw [bind_ok item]
        rfl
      rw [bind_ok more]
      refine ⟨loop, .inr ⟨here, ?_⟩⟩
      rcases longer with ⟨rfl, -⟩ | ⟨-, longer⟩
      · exact Nat.lt_succ_self _
      · exact Nat.lt_of_succ_lt longer

/-- Items up to the closing parenthesis are an expression. -/
theorem expression_of_separated {es : List Node}
    (read : separated .rparen .comma (go (.assignment true)) s = .ok (es, false) t)
    (close : t.token.kind = .punct .rparen) (some : es ≠ []) :
    expression go s = .ok (sequenced ⟨s.token.start, t.lastStop⟩ es) t := by
  unfold separated at read
  obtain ⟨closed, u, here, rest⟩ := bind_inv read
  obtain rfl := atClose_inv here
  split at rest
  · exact absurd (Prod.mk.inj (pure_inv rest).1).1 some
  · obtain ⟨first, v, one, rest⟩ := bind_inv rest
    obtain ⟨⟨items, comma⟩, w, loop, last⟩ := bind_inv rest
    obtain ⟨same, rfl⟩ := pure_inv last
    obtain ⟨rfl, rfl⟩ := Prod.mk.inj same
    rw [iterate_apply] at loop
    obtain ⟨rounds, length⟩ := items_sequence (fun acc comma => rfl) close _ loop
    unfold expression
    simp only [start_bind]
    rw [bind_ok one]
    simp only [isAt_bind]
    rcases length with ⟨rfl, rfl⟩ | ⟨here, longer⟩
    · rw [close]
      rfl
    · rw [here]
      simp only [beq_self_eq_true, if_true]
      have all : iterate [first] (sequenceRound go) v = .ok items t := rounds
      change (iterate [first] (sequenceRound go) >>= fun es =>
        value .sequence u.token.start es.reverse) v = _
      rw [bind_ok all, value_apply]
      have two : 1 < items.reverse.length := by simpa using longer
      obtain ⟨a, b, rest, same⟩ : ∃ a b rest, items.reverse = a :: b :: rest := by
        match items.reverse, two with
        | a :: b :: rest, _ => exact ⟨a, b, rest, rfl⟩
      rw [same]
      rfl

/-- There are no items where the closing mark is. -/
theorem separated_none {p separator : Punct} {item : Read Node} {r : List Node × Bool}
    (close : s.token.kind = .punct p) (read : separated p separator item s = .ok r t) :
    r = ([], false) := by
  have closed : atClose p s = .ok true s := by
    unfold atClose
    simp only [kind_bind, close, beq_self_eq_true]
    rfl
  unfold separated at read
  rw [bind_ok closed] at read
  exact (pure_inv read).1

/-! ## Parentheses -/

/-- The context inside parentheses. -/
def withinParens (s : ReadState input) : ReadState input :=
  { s with context := { s.context with allowIn := true, inDecorator := false } }

theorem like_withinParens (s : ReadState input) : (withinParens s).Like s :=
  ⟨⟨rfl, rfl, rfl, rfl, rfl, rfl, rfl⟩, rfl⟩

theorem wrapped_larger (larger : Larger n) : Larger (wrapped n) := by
  unfold wrapped
  split
  · obtain ⟨form, place, spans, cs⟩ := n
    rfl
  · exact larger

/-- Parentheses hold an expression that the closing one comes right after. -/
theorem parenthesized_inv (read : parenthesized go s = .ok n t) :
    s.token.kind = .punct .lparen ∧ ∃ e v,
      expression go (withinParens (advance s)) = .ok e v ∧ v.token.kind = .punct .rparen ∧
      t = advance { v with context := (advance s).context } ∧
      n = .mk .parens .value ⟨⟨s.token.start, v.token.stop⟩, []⟩ [wrapped e] := by
  unfold parenthesized at read
  simp only [start_bind] at read
  obtain ⟨_, u, opening, read⟩ := bind_inv read
  obtain ⟨paren, rfl⟩ := expect_inv opening
  simp only [start_bind] at read
  obtain ⟨⟨es, comma⟩, u, inside, read⟩ := bind_inv read
  dsimp only at read
  split at read
  · cases read
  next noComma =>
    obtain rfl : comma = false := by simpa using noComma
    obtain ⟨v, items, rfl⟩ := within_inv inside
    refine ⟨paren, ?_⟩
    match es, read with
    | [], read =>
      obtain ⟨-, w, -, last⟩ := bind_inv read
      cases last
    | [e], read =>
      obtain ⟨_, w, closing, last⟩ := bind_inv read
      obtain ⟨close, rfl⟩ := expect_inv closing
      cases last
      exact ⟨_, v, expression_of_separated items close (List.cons_ne_nil _ _), close, rfl, rfl⟩
    | a :: b :: rest, read =>
      obtain ⟨seq, w, all, read⟩ := bind_inv read
      cases all
      obtain ⟨_, w, closing, last⟩ := bind_inv read
      obtain ⟨close, rfl⟩ := expect_inv closing
      cases last
      exact ⟨_, v, expression_of_separated items close (List.cons_ne_nil _ _), close, rfl, rfl⟩

/-- Parentheses are not empty. -/
theorem parenthesized_some (read : parenthesized go s = .ok n t) :
    (advance s).token.kind ≠ .punct .rparen := by
  intro close
  unfold parenthesized at read
  simp only [start_bind] at read
  obtain ⟨_, u, opening, read⟩ := bind_inv read
  obtain ⟨paren, rfl⟩ := expect_inv opening
  simp only [start_bind] at read
  obtain ⟨⟨es, comma⟩, u, inside, read⟩ := bind_inv read
  obtain ⟨v, items, rfl⟩ := within_inv inside
  obtain ⟨rfl, rfl⟩ := Prod.mk.inj (separated_none (s := withinParens (advance s)) close items)
  obtain ⟨-, w, -, last⟩ := bind_inv read
  cases last

/-! ## Statements -/

theorem expression_inv (read : expression go s = .ok m t) :
    ∃ n u, go (.assignment true) s = .ok n u ∧ (m = n ∧ t = u ∨ Larger m) := by
  unfold expression at read
  simp only [start_bind] at read
  obtain ⟨n, u, one, rest⟩ := bind_inv read
  refine ⟨n, u, one, ?_⟩
  simp only [isAt_bind] at rest
  split at rest
  · obtain ⟨es, v, -, last⟩ := bind_inv rest
    exact .inr (value_larger rfl last)
  · exact .inl (pure_inv rest)

/-- A statement ends where the reader is, or after a semicolon. -/
def Finishes (s t : ReadState input) : Prop :=
  t = s ∨ s.token.kind = .punct .semicolon ∧ t = advance s

theorem Finishes.problems (finishes : Finishes s t) : t.problems = s.problems := by
  rcases finishes with rfl | ⟨-, rfl⟩ <;> rfl

theorem canEnd_inv {ends : Bool} (read : canEnd s = .ok ends t) : t = s := by
  unfold canEnd at read
  simp only [token_bind] at read
  cases here : s.token.kind with
  | punct p =>
    rw [here] at read
    cases p <;> exact (pure_inv read).2
  | _ =>
    rw [here] at read
    exact (pure_inv read).2

theorem endStatement_inv (read : endStatement s = .ok () t) : Finishes s t := by
  unfold endStatement at read
  obtain ⟨ends, u, here, rest⟩ := bind_inv read
  obtain rfl := canEnd_inv here
  split at rest
  · obtain ⟨ate, v, semicolon, last⟩ := bind_inv rest
    obtain ⟨-, rfl⟩ := pure_inv last
    rcases eat_inv semicolon with ⟨-, kind, rfl⟩ | ⟨-, rfl⟩
    · exact .inr ⟨kind, rfl⟩
    · exact .inl rfl
  · cases rest

/-- An expression as a statement, unless it is a name, which may be a label. -/
theorem expressionStatement_inv (read : expressionStatement go s = .ok m t) :
    ∃ e u, go .expression s = .ok e u ∧
      ((∀ w, e.form ≠ .identifier w) →
        m.form = .expressionStatement ∧ m.children = [e] ∧ Finishes u t) := by
  unfold expressionStatement at read
  simp only [start_bind] at read
  obtain ⟨e, u, one, rest⟩ := bind_inv read
  refine ⟨e, u, one, fun name => ?_⟩
  have same :
      (endStatement >>= fun _ => part .expressionStatement s.token.start [e]) u = .ok m t := by
    rw [← rest]
    refine congrFun ?_ u
    split
    next w form => exact absurd form (name w)
    next => rfl
  obtain ⟨_, v, finish, last⟩ := bind_inv same
  cases last
  exact ⟨rfl, rfl, endStatement_inv finish⟩

theorem statement_inv {d : Nat} (paren : s.token.kind = .punct .lparen)
    (inert : s.token.inert = false) (read : descend (d + 2) (.statement false) s = .ok m t) :
    ∃ e u, descend (d + 1) .expression s = .ok e u ∧
      ((∀ w, e.form ≠ .identifier w) →
        m.form = .expressionStatement ∧ m.children = [e] ∧ Finishes u t) := by
  change statement (descend (d + 1)) false s = _ at read
  unfold statement at read
  simp only [token_bind, paren] at read
  obtain ⟨n, u, sole, last⟩ := bind_inv read
  simp only [inert, Bool.false_eq_true, if_false] at last
  obtain ⟨rfl, rfl⟩ := pure_inv last
  exact expressionStatement_inv sole

/-! ## Programs -/

/-- What a round of reading statements does where the text goes on. -/
theorem nextStatement_eq {acc : List Node} {first : Bool} (goes : s.token.kind ≠ .eof) :
    nextStatement go true acc first s =
      (go (.statement false) >>= fun n =>
        if first then do
          match asDirective (← get).source n with
          | some d => pure (.more (d :: acc, true))
          | none => pure (.more (n :: acc, false))
        else pure (.more (n :: acc, false))) s := by
  unfold nextStatement
  rw [kind_bind]
  cases here : s.token.kind with
  | eof => exact absurd here goes
  | _ =>
    -- a whole program does not end at a brace
    refine congrFun (if_neg ?_) s
    rw [Bool.not_true, Bool.and_false]
    exact Bool.false_ne_true

/-- A round reads one statement, which may turn out to be a directive. -/
theorem nextStatement_more {acc : List Node} {first : Bool} {r : Step (List Node × Bool)}
    (goes : s.token.kind ≠ .eof) (read : nextStatement go true acc first s = .ok r t) :
    ∃ n x flag, go (.statement false) s = .ok n t ∧ r = .more (x :: acc, flag) ∧
      (x = n ∨ asDirective t.source n = some x) := by
  rw [nextStatement_eq goes] at read
  obtain ⟨n, u, one, rest⟩ := bind_inv read
  split at rest
  · simp only [get_bind] at rest
    cases directive : asDirective u.source n with
    | some d =>
      rw [directive] at rest
      obtain ⟨rfl, rfl⟩ := pure_inv rest
      exact ⟨n, d, true, one, rfl, .inr directive⟩
    | none =>
      rw [directive] at rest
      obtain ⟨rfl, rfl⟩ := pure_inv rest
      exact ⟨n, n, false, one, rfl, .inl rfl⟩
  · obtain ⟨rfl, rfl⟩ := pure_inv rest
    exact ⟨n, n, false, one, rfl, .inl rfl⟩

theorem nextStatement_eof {acc : List Node} {first : Bool} (ends : s.token.kind = .eof) :
    nextStatement go true acc first s = .ok (.done (acc, first)) s := by
  unfold nextStatement
  simp only [kind_bind, ends]
  rfl

/-- Further statements make the list longer, up to the end of the text. -/
theorem statements_longer {step : List Node × Bool → Read (Step (List Node × Bool))}
    (each : ∀ acc first, step (acc, first) = nextStatement go true acc first) (n : Nat)
    {acc ns : List Node} {first last : Bool}
    (read : repeatFor step n (acc, first) s = .ok (ns, last) t) :
    ns = acc ∧ t = s ∧ s.token.kind = .eof ∨ acc.length < ns.length := by
  induction n generalizing acc first s with
  | zero => cases read
  | succ n ih =>
    rw [repeatFor, each] at read
    obtain ⟨r, u, round, rest⟩ := bind_inv read
    by_cases ends : s.token.kind = .eof
    · rw [nextStatement_eof ends] at round
      cases round
      obtain ⟨same, rfl⟩ := pure_inv rest
      exact .inl ⟨(Prod.mk.inj same).1, rfl, ends⟩
    · obtain ⟨m, x, flag, -, rfl, -⟩ := nextStatement_more ends round
      refine .inr ?_
      rcases ih rest with ⟨rfl, -⟩ | longer
      · exact Nat.lt_succ_self _
      · exact Nat.lt_of_succ_lt longer

theorem soleExpression_inv {tree : Node} (sole : tree.soleExpression? = some e) :
    ∃ m p, tree.children = [m] ∧ m.form = .expressionStatement ∧ m.children = [p] ∧
      p.form = .parens ∧ p.children = [e] := by
  unfold Node.soleExpression? at sole
  split at sole
  next m one =>
    split at sole
    next p form two =>
      split at sole
      next inner form' three =>
        cases sole
        exact ⟨m, p, one, form, two, form', three⟩
      next => cases sole
    next => cases sole
  next => cases sole

theorem asDirective_form {source : List Char} (directive : asDirective source m = some n) :
    n.form ≠ .expressionStatement := by
  unfold asDirective at directive
  split at directive
  · split at directive
    · cases directive
      intro same
      cases same
    · cases directive
  · cases directive

theorem Larger.ne_identifier (larger : Larger n) (w : String) : n.form ≠ .identifier w := by
  intro same
  rw [Larger, same] at larger
  cases larger

/-- What begins with a parenthesis is something larger than parentheses, or just these. -/
theorem expression_paren {d : Nat} (paren : s.token.kind = .punct .lparen)
    (inert : s.token.inert = false) (pure : s.token.pure = false)
    (read : descend (d + 7) .expression s = .ok m t) :
    Larger m ∨ ∃ s' u, s'.Back s ∧ parenthesized (descend (d + 3)) s' = .ok m u ∧ Stays u t := by
  change expression (descend (d + 6)) s = _ at read
  obtain ⟨first, v, one, sequence⟩ := expression_inv read
  rcases sequence with ⟨rfl, rfl⟩ | larger
  · rcases assignment_paren paren inert pure one with larger | ⟨s', n, u, back, parens, grown⟩
    · exact .inl larger
    · obtain ⟨-, e, w, -, -, -, rfl⟩ := parenthesized_inv parens
      rcases grown (fun w same => by cases same) with ⟨rfl, stays⟩ | larger
      · exact .inr ⟨s', u, back, parens, stays⟩
      · exact .inl larger
  · exact .inl larger

/-- The expression that makes up a text in parentheses is what the first parentheses hold, and
nothing but a semicolon follows them. -/
theorem program_sole {d : Nat} {tree : Node} (paren : s.token.kind = .punct .lparen)
    (inert : s.token.inert = false) (pure : s.token.pure = false)
    (read : program (d + 8) s = .ok tree t) (sole : tree.soleExpression? = some e) :
    ∃ s' m span u v, s'.Back s ∧
      parenthesized (descend (d + 3)) s' = .ok (.mk .parens .value span [e]) u ∧
      tree.children = [m] ∧ m.form = .expressionStatement ∧
      m.children = [.mk .parens .value span [e]] ∧
      Stays u v ∧ Finishes v t ∧ t.token.kind = .eof := by
  unfold program at read
  simp only [token_bind, paren, pure_bind_apply] at read
  obtain ⟨items, u, all, last⟩ := bind_inv read
  cases last
  obtain ⟨m, p, one, form, two, parens, three⟩ := soleExpression_inv sole
  obtain rfl : items = [m] := one
  unfold statements at all
  obtain ⟨⟨list, flag⟩, u, loop, last⟩ := bind_inv all
  obtain ⟨same, rfl⟩ := pure_inv last
  obtain rfl : list = [m] := by simpa using same.symm
  rw [iterate_apply, repeatFor] at loop
  obtain ⟨r, w, first, rest⟩ := bind_inv loop
  obtain ⟨n, x, fl, statement, rfl, origin⟩ := nextStatement_more (by simp [paren]) first
  -- no other statement follows
  rcases statements_longer (fun acc first => rfl) _ rest with ⟨same, rfl, ends⟩ | more
  · obtain rfl : m = x := (List.cons.inj same).1
    rcases origin with rfl | directive
    · obtain ⟨q, v, whole, known⟩ := statement_inv paren inert statement
      rcases expression_paren paren inert pure whole with larger | ⟨s', u, back, inside, stays⟩
      · obtain ⟨-, children, -⟩ := known larger.ne_identifier
        rw [two] at children
        obtain ⟨rfl, -⟩ := List.cons.inj children
        rw [Larger, parens] at larger
        cases larger
      · obtain ⟨-, e', w', -, -, -, rfl⟩ := parenthesized_inv inside
        obtain ⟨-, children, finishes⟩ := known fun w same => by cases same
        rw [two] at children
        obtain ⟨rfl, -⟩ := List.cons.inj children
        obtain ⟨rfl, -⟩ := List.cons.inj three
        exact ⟨s', m, _, u, v, back, inside, rfl, form, two, stays, finishes, ends⟩
    · exact absurd form (asDirective_form directive)
  · simp at more

end Read

end Splice
