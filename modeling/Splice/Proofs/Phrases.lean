import Splice.Proofs.Operand

/-!
# Reading operators

The rules for the operators of a term and for what surrounds them. A run of one logical operator is
read leaning to the left. An operator is read in a loop that has the tree so far; what the loop does
with an operand is stated as an equation between loops, because the loop does not know where the
term ends.
-/
namespace Splice

variable {input : Source}

/-! ## Unary operators -/

/-- The tokens are read as the term, wherever an operand may stand. -/
def Term.OperandBy [input : Source] (go : Descend) (ts : List Tok) (e : Term) (wrapped : Bool) : Prop :=
  ∀ ⦃l : Language⦄ ⦃c : Context⦄ ⦃rest : List Tok⦄ ⦃st : ReadState input⦄,
    c.allowIn = true → follows rest → st.Ready l c (ts ++ rest) →
    ∃ n st', go .unary st = .ok n st' ∧ n.Reads e wrapped ∧ st'.Ready l c rest

/-- The tokens that may begin a chain of accesses and calls. -/
inductive Tok.OpensChain : Tok → Prop where
  | name (n : Name) : OpensChain (.word n.toWord)
  | paren : OpensChain (.mark .lparen)

theorem Tok.OpensChain.opens {t : Tok} (chain : t.OpensChain) : t.Opens := by
  cases chain with
  | name n => exact .name n
  | paren => exact .paren

theorem Tok.OpensChain.not_unary {t : Tok} (chain : t.OpensChain) : Read.unaryOf t.kind = none := by
  cases chain with
  | paren => rfl
  | name n =>
    unfold Read.unaryOf
    split <;> first
      | rfl
      | (rename_i same; cases same)
      | (rename_i same
         exact absurd (TokenKind.word.inj same) (n.text_ne (by decide)))

theorem Tok.Opens.not_word {t : Tok} (opens : t.Opens) {w : String}
    (taken : ["await", "yield", "async"].contains w = true) : (t.kind == .word w) = false := by
  refine beq_false_of_ne ?_
  intro same
  cases opens with
  | name n => exact n.text_ne (by rw [taken, Bool.or_true]) (TokenKind.word.inj same)
  | paren => cases same
  | unary op => cases op <;> cases same <;> cases taken

theorem TokenKind.updateOf_follows {k : TokenKind} (next : k.follows = true) :
    Read.updateOf k = none := by
  unfold Read.updateOf
  split
  · cases next
  · cases next
  · rfl

namespace Read

variable {st : ReadState input} {l : Language} {c : Context} {t : Tok} {ts rest : List Tok}

theorem isAwait_false (ready : st.Ready l c (t :: ts)) (opens : t.Opens) :
    isAwait st = .ok false st := by
  have kind := ready.kind_eq opens.late
  have other : (t.kind == .word "await") = false := opens.not_word (by decide)
  unfold isAwait
  simp only [atWord_bind, kind, other]
  rfl

/-- Where an operand begins with a name or a parenthesis, a chain of accesses and calls is read. -/
theorem unary_chain {d : Nat} (ready : st.Ready l c (t :: ts)) (chain : t.OpensChain) :
    descend (d + 1) .unary st = updateExpression (descend d) st := by
  have kind := ready.kind_eq chain.opens.late
  have angle : (t.kind == .punct .lt) = false := chain.opens.not_mark (by decide)
  change unaryExpression (descend d) st = _
  unfold unaryExpression
  simp only [start_bind, kind_bind, kind, chain.not_unary, language_bind, isTyped_bind, angle,
    Bool.false_and, Bool.false_eq_true, if_false]
  rw [bind_ok (isAwait_false ready chain.opens)]
  rfl

end Read

namespace Term

variable {d : Nat}

theorem operand_of_chain {ts : List Tok} {e : Term} {wrapped : Bool}
    (chain : e.ChainedBy (Read.descend d) ts wrapped)
    (begins : ∃ t us, ts = t :: us ∧ t.OpensChain) :
    e.OperandBy (Read.descend (d + 1)) ts wrapped := by
  intro l c rest st allowed next ready
  obtain ⟨t, us, rfl, opens⟩ := begins
  have kind := ready.kind_eq opens.opens.late
  have update : Read.updateOf st.token.kind = none := by
    rw [kind]
    cases opens <;> rfl
  have angle : (st.token.kind == .punct .lt) = false := by
    rw [kind]
    exact opens.opens.not_mark (by decide)
  obtain ⟨k, n, node, st', same, reads, ready', accesses, -⟩ := chain st.token.start allowed ready
  obtain ⟨k, rfl⟩ : ∃ m, k = m + 1 := ⟨k - 1, by omega⟩
  rw [Read.chainFrom_done (Read.descend d) _ ready' next] at same
  have lhs : Read.leftHandSide (Read.descend d) st = .ok node st' := by
    unfold Read.leftHandSide
    simp only [Read.start_bind]
    rw [← bind_assoc, Read.bind_ok same]
    rfl
  refine ⟨node, st', ?_, reads, ready'⟩
  rw [Read.unary_chain ready opens]
  unfold Read.updateExpression
  simp only [Read.start_bind, Read.kind_bind, update, Read.isAt_bind, angle, Read.language_bind,
    Bool.false_and, Bool.false_eq_true, if_false]
  rw [Read.bind_ok lhs]
  simp only [Read.kind_bind, TokenKind.updateOf_follows (ready'.kind_follows next)]
  rfl

theorem operand_unary (op : UnaryOp) {x : Term} {ts : List Tok} {wrapped : Bool}
    (operand : x.OperandBy (Read.descend d) ts wrapped) :
    (unary op x).OperandBy (Read.descend (d + 1)) (op.tok :: ts) false := by
  intro l c rest st allowed next ready
  have kind := ready.kind_eq (t := op.tok) (by cases op <;> rfl)
  have isUnary : Read.unaryOf st.token.kind = some op := by
    rw [kind]
    cases op <;> rfl
  obtain ⟨st₁, moved, ready₁⟩ := ready.bump kind
  obtain ⟨n, st₂, done, reads, ready₂⟩ := operand allowed next ready₁
  refine ⟨.mk (.unary op) .value ⟨⟨st.token.start, st₂.lastStop⟩, []⟩ [n], st₂, ?_, ⟨?_, rfl⟩, ready₂⟩
  · change Read.unaryExpression (Read.descend d) st = _
    unfold Read.unaryExpression
    simp only [Read.start_bind, Read.kind_bind, isUnary]
    rw [Read.bind_ok moved, Read.bind_ok done]
    rfl
  · rw [Node.bare_mk _ _ _ (by simp)]
    simp only [List.map_cons, List.map_nil, reads.tree, regroup, Term.node, expr]

/-- A term that binds tighter than an operator begins with a name or a parenthesis. -/
theorem opensChain (e : Term) (tight : Strength.unary.rank < e.level) :
    ∃ t ts, e.toks = t :: ts ∧ t.OpensChain := by
  have enclosed : ∀ {o : Term} {ts : List Tok},
      (Strength.unary.rank < o.level → ∃ t us, o.toks = t :: us ∧ t.OpensChain) →
      ∃ t us, enclose (o.isWrapped .update) o.toks ++ ts = t :: us ∧ t.OpensChain := by
    intro o ts begins
    by_cases wrapped : o.isWrapped .update
    · rw [wrapped]
      exact ⟨_, _, rfl, .paren⟩
    · have bare : ¬ o.level ≤ Strength.update.rank := by simpa [isWrapped] using wrapped
      obtain ⟨t, us, first, chain⟩ := begins (by simp only [Strength.rank] at bare ⊢; omega)
      rw [Bool.not_eq_true] at wrapped
      rw [wrapped, first]
      exact ⟨t, us ++ ts, rfl, chain⟩
  induction e using Term.induction_on with
  | name n => exact ⟨_, _, rfl, .name n⟩
  | member o f ih => exact enclosed ih
  | call f as ih _ => exact enclosed ih
  | unary op x => simp [level] at tight
  | binary op l r => cases op <;> simp [level, BinaryOp.strength, Strength.rank] at tight
  | logical op l r => cases op <;> simp [level, LogicalOp.strength, Strength.rank] at tight
  | conditional t y n => simp [level, Strength.rank] at tight

end Term

/-! ## Operators between operands -/

/-- No operator that binds tighter than `above` comes next. -/
def stops (above : Strength) (ts : List Tok) : Prop :=
  ∀ t ∈ ts.head?, ∀ op, Read.operatorOf t.kind = some op →
    Read.bindsAbove op.strength above = false

/-- What follows the term does not become a part of its last operand. -/
def Term.ends : Term → List Tok → Prop
  | binary op _ _, ts => stops op.strength ts
  | logical op _ _, ts => stops op.strength ts
  | _, _ => True

/-- The tokens are read as the term, up to the operators that may still follow. -/
def Term.LoopedBy [input : Source] (d : Nat) (above : Strength) (ts : List Tok) (e : Term)
    (wrapped : Bool) : Prop :=
  ∀ ⦃l : Language⦄ ⦃c : Context⦄ ⦃rest : List Tok⦄ ⦃st : ReadState input⦄,
    c.allowIn = true → follows rest → (wrapped = false → e.ends rest) →
    st.Ready l c (ts ++ rest) →
    ∃ s n node st', Read.descend (d + 1) (.binary above) st =
        Read.repeatFor (Read.binaryRound (Read.descend d) s above) n node st' ∧
      node.Reads e wrapped ∧ st'.Ready l c rest ∧ rest.length < n

namespace Read

variable {s : Nat} {above : Strength} {st : ReadState input} {l : Language} {c : Context}
  {rest : List Tok}

theorem binaryRound_done (go : Descend) (s : Nat) (left : Node) (ready : st.Ready l c rest)
    (stop : stops above rest) :
    ∃ st', binaryRound go s above left st = .ok (.done left) st' ∧ st'.Ready l c rest := by
  cases rest with
  | nil =>
    refine ⟨st, ?_, ready⟩
    have same : joinMark st = .ok () st := by
      have kind := ready.kind_nil
      have whole : Read.joined st = st := by simp [Read.joined, kind]
      exact congrArg (EStateM.Result.ok ()) whole
    unfold binaryRound
    rw [bind_ok same]
    simp only [kind_bind, ready.kind_nil, operatorOf]
    rfl
  | cons t ts =>
    obtain ⟨st', joined, ready', kind⟩ := ready.joinMark
    refine ⟨st', ?_, ready'⟩
    unfold binaryRound
    rw [bind_ok joined]
    simp only [kind_bind, kind]
    cases found : operatorOf t.kind with
    | none => rfl
    | some op =>
      simp only [stop t rfl op found, Bool.not_false, if_true]
      rfl

/-- An operator and its right operand. -/
theorem binaryRound_binary {op : BinaryOp} {left : Node} {d : Nat} {ts : List Tok} {P : Node → Prop}
    (allowed : c.allowIn = true) (enough : bindsAbove op.strength above = true)
    (power : op = .pow → ∀ o, left.form ≠ .unary o ∧ left.form ≠ .await)
    (ready : st.Ready l c (op.tok :: (ts ++ rest)))
    (read : ∀ st' : ReadState input, st'.Ready l c (ts ++ rest) →
      ∃ n st'', descend d (.binary op.strength) st' = .ok n st'' ∧ P n ∧ st''.Ready l c rest) :
    ∃ right span st', binaryRound (descend d) s above left st =
        .ok (.more (.mk (.binary op) .value span [left, right])) st' ∧ P right ∧
      st'.Ready l c rest := by
  obtain ⟨st₁, joined, ready₁, kind⟩ := ready.joinMark
  obtain ⟨st₂, moved, ready₂⟩ := ready₁.bump kind
  obtain ⟨right, st₃, done, result, ready₃⟩ := read st₂ ready₂
  refine ⟨right, ⟨⟨s, st₃.lastStop⟩, []⟩, st₃, ?_, result, ready₃⟩
  have operator : operatorOf op.tok.kind = some (.binary op) := by
    cases op <;> rfl
  have check : op = .pow → checkPower left st₃ = .ok () st₃ := by
    intro pow
    unfold checkPower
    refine congrFun (?_ : _ = (pure () : Read Unit)) st₃
    split
    next o form => exact absurd form (power pow o).1
    next form => exact absurd form (power pow .plus).2
    · rfl
  unfold binaryRound
  rw [bind_ok joined]
  simp only [kind_bind, kind, operator, Operator.strength, enough, Bool.not_true, Bool.false_eq_true,
    if_false, context_bind, ready₁.context, allowed, Bool.and_false]
  rw [bind_ok moved, bind_ok done]
  by_cases pow : op = .pow
  · rw [if_pos (by rw [pow]; rfl), bind_ok (check pow)]
    rfl
  · rw [if_neg (by simpa using pow)]
    rfl

/-- A logical operator and its right operand. -/
theorem binaryRound_logical {op : LogicalOp} {left : Node} {d : Nat} {ts : List Tok}
    {P : Node → Prop} (enough : bindsAbove op.strength above = true)
    (fits : op = .coalesce → mixes left = false ∧ ∀ n, P n → mixes n = false)
    (ready : st.Ready l c (op.tok :: (ts ++ rest)))
    (read : ∀ st' : ReadState input, st'.Ready l c (ts ++ rest) →
      ∃ n st'', descend d (.binary op.strength) st' = .ok n st'' ∧ P n ∧ st''.Ready l c rest) :
    ∃ right span st', binaryRound (descend d) s above left st =
        .ok (.more (.mk (.logical op) .value span [left, right])) st' ∧ P right ∧
      st'.Ready l c rest := by
  obtain ⟨st₁, joined, ready₁, kind⟩ := ready.joinMark
  obtain ⟨st₂, moved, ready₂⟩ := ready₁.bump kind
  obtain ⟨right, st₃, done, result, ready₃⟩ := read st₂ ready₂
  refine ⟨right, ⟨⟨s, st₃.lastStop⟩, []⟩, st₃, ?_, result, ready₃⟩
  have operator : operatorOf op.tok.kind = some (.logical op) := by
    cases op <;> rfl
  have check : checkMixed op left right st₃ = .ok () st₃ := by
    unfold checkMixed
    by_cases coalesce : op = .coalesce
    · obtain ⟨leftFits, rightFits⟩ := fits coalesce
      rw [leftFits, rightFits right result, Bool.or_self, Bool.and_false]
      rfl
    · rw [beq_false_of_ne coalesce, Bool.false_and]
      rfl
  unfold binaryRound
  rw [bind_ok joined]
  simp only [kind_bind, kind, operator, Operator.strength, enough, Bool.not_true, Bool.false_eq_true,
    if_false]
  rw [bind_ok moved, bind_ok done, bind_ok check]
  rfl

end Read

namespace Term

variable {d : Nat} {above : Strength}

theorem looped_of_operand {ts : List Tok} {e : Term} {wrapped : Bool}
    (operand : e.OperandBy (Read.descend d) ts wrapped) (begins : ∃ t us, ts = t :: us ∧ t.Opens) :
    e.LoopedBy d above ts wrapped := by
  intro l c rest st allowed next _ ready
  obtain ⟨node, st', done, reads, ready'⟩ := operand allowed next ready
  have bound := ready'.length_le
  refine ⟨st.token.start, st'.size - st'.token.start + 2, node, st', ?_, reads, ready', by omega⟩
  obtain ⟨t, us, rfl, opens⟩ := begins
  have kind := ready.kind_eq opens.late
  have first : Read.binaryExpression (Read.descend d) above st =
      (Read.descend d .unary >>= fun first =>
        Read.binaryRest (Read.descend d) st.token.start first above) st := by
    unfold Read.binaryExpression
    simp only [Read.start_bind, Read.kind_bind, kind]
    cases opens with
    | name | paren => rfl
    | unary op => cases op <;> rfl
  change Read.binaryExpression (Read.descend d) above st = _
  rw [first, Read.bind_ok done]
  rfl

/-- Where no tighter operator follows, the loop is over. -/
theorem LoopedBy.finish {ts rest : List Tok} {e : Term} {wrapped : Bool} {l : Language} {c : Context}
    {st : ReadState input} (looped : e.LoopedBy d above ts wrapped) (allowed : c.allowIn = true)
    (next : follows rest) (own : wrapped = false → e.ends rest) (stop : stops above rest)
    (ready : st.Ready l c (ts ++ rest)) :
    ∃ node st', Read.descend (d + 1) (.binary above) st = .ok node st' ∧ node.Reads e wrapped ∧
      st'.Ready l c rest := by
  obtain ⟨s, n, node, st₁, same, reads, ready₁, bound⟩ := looped allowed next own ready
  obtain ⟨n, rfl⟩ : ∃ m, n = m + 1 := ⟨n - 1, by omega⟩
  obtain ⟨st₂, done, ready₂⟩ := Read.binaryRound_done (Read.descend d) s node ready₁ stop
  refine ⟨node, st₂, ?_, reads, ready₂⟩
  rw [same]
  exact Read.repeatFor_done done n

theorem looped_binary {op : BinaryOp} {left right : Term} {ts us : List Tok} {w v : Bool}
    (first : left.LoopedBy (d + 1) above ts w) (second : right.LoopedBy d op.strength us v)
    (enough : Read.bindsAbove op.strength above = true)
    (power : op = .pow → ∀ node : Node, node.Reads left w → ∀ o, node.form ≠ .unary o)
    (leftEnds : ∀ rest, w = false → left.ends (op.tok :: rest))
    (rightEnds : ∀ rest, stops op.strength rest → v = false → right.ends rest) :
    (binary op left right).LoopedBy (d + 1) above (ts ++ op.tok :: us) false := by
  intro l c rest st allowed next ends ready
  rw [List.append_assoc, List.cons_append] at ready
  have operator : follows (op.tok :: (us ++ rest)) := by
    intro t first
    cases first
    cases op <;> rfl
  obtain ⟨s, n, node, st₁, same, reads, ready₁, bound⟩ :=
    first allowed operator (leftEnds (us ++ rest)) ready
  obtain ⟨n, rfl⟩ : ∃ m, n = m + 1 := ⟨n - 1, by omega⟩
  have stop : stops op.strength rest := ends rfl
  obtain ⟨right, span, st₂, round, result, ready₂⟩ := Read.binaryRound_binary (s := s)
    (P := fun n => n.Reads right v) allowed enough
    (fun pow o => ⟨power pow node reads o, reads.form_ne.2.2⟩) ready₁
    fun st' inner => second.finish allowed next (rightEnds rest stop) stop inner
  simp only [List.length_cons, List.length_append] at bound
  refine ⟨s, n, _, st₂, same.trans (Read.repeatFor_more round n), ⟨?_, rfl⟩, ready₂, by omega⟩
  rw [Node.bare_mk _ _ _ (by simp)]
  simp only [List.map_cons, List.map_nil, reads.tree, result.tree, regroup, Term.node, expr]

end Term

/-! ## Runs of a logical operator -/

/-- Behind a left operand, the operator and the tokens are read as the term put behind the left
operand. -/
def Term.GraftedBy [input : Source] (d : Nat) (op : LogicalOp) (ts : List Tok) (e : Term) : Prop :=
  ∀ ⦃above : Strength⦄ ⦃l : Language⦄ ⦃c : Context⦄ ⦃rest : List Tok⦄ ⦃st : ReadState input⦄ ⦃s n : Nat⦄
    ⦃left : Node⦄ ⦃t : Term⦄,
    c.allowIn = true → Read.bindsAbove op.strength above = true → follows rest →
    stops op.strength rest → st.Ready l c (op.tok :: (ts ++ rest)) → left.bare = t.node →
    (op = .coalesce → Read.mixes left = false) → (op.tok :: (ts ++ rest)).length < n →
    ∃ m node st', Read.repeatFor (Read.binaryRound (Read.descend (d + 1)) s above) n left st =
        Read.repeatFor (Read.binaryRound (Read.descend (d + 1)) s above) m node st' ∧
      node.bare = (graft op t e.regroup).node ∧ node.form = .logical op ∧ st'.Ready l c rest ∧
      rest.length < m

namespace Term

variable {d : Nat} {above : Strength} {op : LogicalOp}

theorem grafted_single {e : Term} {ts : List Tok} {w : Bool}
    (operand : e.LoopedBy d op.strength ts w)
    (ends : ∀ rest, stops op.strength rest → w = false → e.ends rest)
    (fits : op = .coalesce → ∀ node : Node, node.Reads e w → Read.mixes node = false)
    (single : ∀ t, graft op t e.regroup = logical op t e.regroup) : e.GraftedBy d op ts := by
  intro above l c rest st s n left t allowed enough next stop ready tree mixes bound
  obtain ⟨n, rfl⟩ : ∃ m, n = m + 1 := ⟨n - 1, by omega⟩
  obtain ⟨right, span, st', round, result, ready'⟩ := Read.binaryRound_logical (s := s)
    (P := fun n => n.Reads e w) enough (fun coalesce => ⟨mixes coalesce, fits coalesce⟩) ready
    fun st' inner => operand.finish allowed next (ends rest stop) stop inner
  simp only [List.length_cons, List.length_append] at bound
  refine ⟨n, _, st', Read.repeatFor_more round n, ?_, rfl, ready', by omega⟩
  rw [Node.bare_mk _ _ _ (by simp), single]
  simp only [List.map_cons, List.map_nil, tree, result.tree, Term.node, expr]

theorem stops_self (op : LogicalOp) (rest : List Tok) : stops op.strength (op.tok :: rest) := by
  intro t first o found
  cases first
  cases op <;> cases found <;> rfl

theorem grafted_run {a b : Term} {ts us : List Tok} (first : a.GraftedBy d op ts)
    (second : b.GraftedBy d op us) : (logical op a b).GraftedBy d op (ts ++ op.tok :: us) := by
  intro above l c rest st s n left t allowed enough next stop ready tree mixes bound
  rw [List.append_assoc, List.cons_append] at ready bound
  have operator : follows (op.tok :: (us ++ rest)) := by
    intro t first
    cases first
    cases op <;> rfl
  obtain ⟨m, node, st₁, same₁, tree₁, form₁, ready₁, bound₁⟩ :=
    first (s := s) allowed enough operator (stops_self op _) ready tree mixes bound
  have mixes₁ : op = .coalesce → Read.mixes node = false := by
    rintro rfl
    rw [Read.mixes, form₁]
    rfl
  obtain ⟨k, node', st₂, same₂, tree₂, form₂, ready₂, bound₂⟩ :=
    second (s := s) allowed enough next stop ready₁ tree₁ mixes₁ bound₁
  refine ⟨k, node', st₂, same₁.trans same₂, ?_, form₂, ready₂, bound₂⟩
  rw [tree₂, regroup, graft_graft]

theorem looped_logical {left right : Term} {ts us : List Tok} {w : Bool}
    (first : left.LoopedBy (d + 1) above ts w) (second : right.GraftedBy d op us)
    (enough : Read.bindsAbove op.strength above = true)
    (fits : op = .coalesce → ∀ node : Node, node.Reads left w → Read.mixes node = false)
    (ends : ∀ rest, w = false → left.ends (op.tok :: rest)) :
    (logical op left right).LoopedBy (d + 1) above (ts ++ op.tok :: us) false := by
  intro l c rest st allowed next own ready
  rw [List.append_assoc, List.cons_append] at ready
  have operator : follows (op.tok :: (us ++ rest)) := by
    intro t first
    cases first
    cases op <;> rfl
  obtain ⟨s, n, node, st₁, same₁, reads, ready₁, bound₁⟩ :=
    first allowed operator (ends (us ++ rest)) ready
  obtain ⟨m, node', st₂, same₂, tree, form, ready₂, bound₂⟩ :=
    second (s := s) allowed enough next (own rfl) ready₁ reads.tree
      (fun coalesce => fits coalesce node reads) bound₁
  refine ⟨s, m, node', st₂, same₁.trans same₂, ⟨tree, ?_⟩, ready₂, bound₂⟩
  rw [Node.isParens, form]

end Term

/-! ## What is no arrow function -/

/-- What follows a name at the start of a term that is more than the name. -/
inductive AfterName : List Tok → Prop where
  | member (ts : List Tok) : AfterName (.mark .dot :: ts)
  | call (ts : List Tok) : AfterName (.mark .lparen :: ts)
  | binary (op : BinaryOp) (ts : List Tok) : AfterName (op.tok :: ts)
  | logical (op : LogicalOp) (ts : List Tok) : AfterName (op.tok :: ts)
  | conditional {t : Tok} (ts : List Tok) : t.Opens → AfterName (.mark .question :: t :: ts)

/-- Tokens that do not begin an arrow function in parentheses, as the first few of them show. -/
inductive NoArrow : List Tok → Prop where
  | name (n : Name) (ts : List Tok) : NoArrow (.word n.toWord :: ts)
  | unary (op : UnaryOp) (ts : List Tok) : NoArrow (op.tok :: ts)
  | parens (ts : List Tok) : NoArrow (.mark .lparen :: .mark .lparen :: ts)
  | parenUnary (op : UnaryOp) (ts : List Tok) : NoArrow (.mark .lparen :: op.tok :: ts)
  | parenName (n : Name) {ts : List Tok} : AfterName ts →
    NoArrow (.mark .lparen :: .word n.toWord :: ts)

theorem AfterName.append {ts : List Tok} (after : AfterName ts) (us : List Tok) :
    AfterName (ts ++ us) := by
  cases after with
  | member => exact .member _
  | call => exact .call _
  | binary op => exact .binary op _
  | logical op => exact .logical op _
  | conditional _ opens => exact .conditional _ opens

theorem NoArrow.append {ts : List Tok} (no : NoArrow ts) (us : List Tok) : NoArrow (ts ++ us) := by
  cases no with
  | name n => exact .name n _
  | unary op => exact .unary op _
  | parens => exact .parens _
  | parenUnary op => exact .parenUnary op _
  | parenName n after => exact .parenName n (after.append us)

namespace Term

theorem tok_ne_name {t : Tok} {n : Name} (other : t = .mark .lparen ∨ ∃ op : UnaryOp, t = op.tok) :
    t ≠ .word n.toWord := by
  rintro rfl
  rcases other with same | ⟨op, same⟩
  · cases same
  · have free := n.free
    have text : Tok.kind (.word n.toWord) = op.tok.kind := by rw [same]
    cases op <;> first
      | cases text
      | exact n.text_ne (by decide) (TokenKind.word.inj text)

/-- A part in front of other tokens: it is a name and they follow it, or it goes on itself. -/
theorem afterName_enclose {o : Term} {w : Bool} {ts us : List Tok} {n : Name}
    (part : ∀ us, o.toks = .word n.toWord :: us → us = [] ∨ AfterName us) (after : AfterName ts)
    (same : enclose w o.toks ++ ts = .word n.toWord :: us) : AfterName us := by
  cases w with
  | true => cases same
  | false =>
    obtain ⟨t, vs, first, -⟩ := o.opens
    change o.toks ++ ts = _ at same
    rw [first, List.cons_append] at same
    obtain ⟨rfl, rfl⟩ := List.cons.inj same
    rcases part vs first with rfl | goes
    · exact after
    · exact goes.append ts

/-- A term that begins with a name is the name, or goes on in a way that no parameter list does. -/
theorem afterName (e : Term) {n : Name} :
    ∀ us, e.toks = .word n.toWord :: us → us = [] ∧ (∃ m, e = name m) ∨ AfterName us := by
  have part : ∀ {o : Term}, (∀ us, o.toks = .word n.toWord :: us →
      us = [] ∧ (∃ m, o = name m) ∨ AfterName us) →
      ∀ us, o.toks = .word n.toWord :: us → us = [] ∨ AfterName us := by
    intro o whole us same
    exact (whole us same).imp_left And.left
  induction e using Term.induction_on with
  | name m => exact fun us same => Or.inl ⟨(List.cons.inj same).2.symm, m, rfl⟩
  | member o f ih => exact fun us same => Or.inr (afterName_enclose (part ih) (.member _) same)
  | call f as ih _ => exact fun us same => Or.inr (afterName_enclose (part ih) (.call _) same)
  | unary op x =>
    intro us same
    exact absurd (List.cons.inj same).1 (tok_ne_name (Or.inr ⟨op, rfl⟩))
  | binary op l r ih _ =>
    exact fun us same => Or.inr (afterName_enclose (part ih) (.binary op _) same)
  | logical op l r ih _ =>
    exact fun us same => Or.inr (afterName_enclose (part ih) (.logical op _) same)
  | conditional t y n ih _ _ =>
    intro us same
    obtain ⟨first, ts, begins, opens⟩ := y.opens
    refine Or.inr (afterName_enclose (part ih) ?_ same)
    rw [begins]
    exact .conditional _ opens

/-- In parentheses only a name could be a parameter. -/
theorem noArrow_parens {e : Term} (other : ∀ n, e ≠ name n) : NoArrow (enclose true e.toks) := by
  obtain ⟨t, us, first, opens⟩ := e.opens
  change NoArrow (.mark .lparen :: (e.toks ++ [.mark .rparen]))
  rw [first]
  cases opens with
  | paren => exact .parens _
  | unary op => exact .parenUnary op _
  | name n =>
    refine .parenName n ?_
    rcases e.afterName us first with ⟨-, m, rfl⟩ | goes
    · exact absurd rfl (other m)
    · exact goes.append _

/-- Only what is more than a name stands in parentheses. -/
theorem noArrow_enclose {e : Term} (s : Strength) (ts : List Tok) (bare : NoArrow e.toks) :
    NoArrow (enclose (e.isWrapped s) e.toks ++ ts) := by
  cases wrapped : e.isWrapped s with
  | false => exact bare.append ts
  | true =>
    refine (noArrow_parens fun n same => ?_).append ts
    rw [same, isWrapped_name] at wrapped
    cases wrapped

theorem noArrow (e : Term) : NoArrow e.toks := by
  induction e using Term.induction_on with
  | name n => exact .name n _
  | member o f ih => exact noArrow_enclose _ _ ih
  | call f as ih _ => exact noArrow_enclose _ _ ih
  | unary op x => exact .unary op _
  | binary op l r ih _ => exact noArrow_enclose _ _ ih
  | logical op l r ih _ => exact noArrow_enclose _ _ ih
  | conditional t y n ih _ _ => exact noArrow_enclose _ _ ih

end Term

namespace Read

variable {st : ReadState input} {l : Language} {c : Context} {ts : List Tok}

/-- What follows the first name shows that no parameter list begins. -/
theorem guessParens_name (n : Name) (ready : st.Ready l c (.word n.toWord :: ts))
    (after : AfterName ts) :
    ∃ us st', guessParens st = .ok .no st' ∧ st'.Ready l c us := by
  have kind : st.token.kind = .word n.text := ready.kind_eq rfl
  have name : isName (.word n.text) = true := by
    rw [isName, nameWord?, n.free]
    rfl
  obtain ⟨st₁, moved, ready₁⟩ := ready.bumpName kind
  have other : isName st₁.token.kind = false := by
    cases after with
    | member => rw [ready₁.kind_eq rfl]; rfl
    | call => rw [ready₁.kind_eq rfl]; rfl
    | conditional => rw [ready₁.kind_eq rfl]; rfl
    | binary op =>
      rcases ready₁.kind_cases with kind | ⟨-, kind⟩
      · rw [kind]
        cases op <;> rfl
      · rw [kind]
        rfl
    | logical op =>
      rw [ready₁.kind_eq (by cases op <;> rfl)]
      cases op <;> rfl
  have second : (!isName (.word n.text) && n.text != "this") = false := by
    rw [name]
    rfl
  unfold guessParens
  simp only [kind_bind, kind]
  rw [bind_ok moved]
  simp only [kind_bind, other, Bool.and_false, Bool.false_eq_true, if_false, second]
  cases after with
  | member =>
    rw [ready₁.kind_eq rfl]
    exact ⟨_, st₁, rfl, ready₁⟩
  | call =>
    rw [ready₁.kind_eq rfl]
    exact ⟨_, st₁, rfl, ready₁⟩
  | binary op =>
    refine ⟨_, st₁, ?_, ready₁⟩
    rcases ready₁.kind_cases with kind | ⟨-, kind⟩
    · rw [kind]
      cases op <;> rfl
    · rw [kind]
      rfl
  | logical op =>
    refine ⟨_, st₁, ?_, ready₁⟩
    rw [ready₁.kind_eq (by cases op <;> rfl)]
    cases op <;> rfl
  | conditional _ opens =>
    obtain ⟨st₂, past, ready₂⟩ := ready₁.bump (ready₁.kind_eq rfl)
    refine ⟨_, st₂, ?_, ready₂⟩
    rw [ready₁.kind_eq rfl]
    simp only [Tok.kind]
    rw [bind_ok past]
    simp only [kind_bind]
    rw [ready₂.kind_eq opens.late]
    cases opens with
    | name | paren => rfl
    | unary op => cases op <;> rfl

/-- A unary operator begins no parameter list. -/
theorem guessParens_unary (op : UnaryOp) (ready : st.Ready l c (op.tok :: ts)) :
    ∃ us st', guessParens st = .ok .no st' ∧ st'.Ready l c us := by
  have kind := ready.kind_eq (t := op.tok) (by cases op <;> rfl)
  obtain ⟨st₁, moved, ready₁⟩ := ready.bumpName kind
  unfold guessParens
  simp only [kind_bind, kind]
  cases op with
  | plus | minus | not | complement => exact ⟨_, st, rfl, ready⟩
  | typeof | void | delete =>
    refine ⟨_, st₁, ?_, ready₁⟩
    change (bumpName >>= fun _ => _) st = _
    rw [bind_ok moved]
    rfl

/-- A second parenthesis begins no parameter list. -/
theorem guessParens_paren (ready : st.Ready l c (.mark .lparen :: ts)) :
    ∃ us st', guessParens st = .ok .no st' ∧ st'.Ready l c us := by
  have kind : st.token.kind = .punct .lparen := ready.kind_eq rfl
  refine ⟨_, st, ?_, ready⟩
  unfold guessParens
  simp only [kind_bind, kind]
  rfl

theorem guessArrow_paren {g : Guess} (ready : st.Ready l c (.mark .lparen :: ts))
    (inside : ∀ {st' : ReadState input}, st'.Ready l c ts →
      ∃ us st'', guessParens st' = .ok g st'' ∧ st''.Ready l c us) :
    ∃ st', guessArrow st = .ok g st' ∧ st'.Ready l c (.mark .lparen :: ts) := by
  have kind : st.token.kind = .punct .lparen := ready.kind_eq rfl
  have other : (TokenKind.punct .lparen == .word "async") = false := rfl
  obtain ⟨st₁, moved, ready₁⟩ := ready.bump kind
  obtain ⟨us, st₂, guess, ready₂⟩ := inside ready₁
  unfold guessArrow
  refine ready.lookahead Guess.no ?_ ready₂
  simp only [atWord_bind, kind, other, Bool.false_eq_true, if_false, kind_bind]
  rw [bind_ok moved]
  exact guess

theorem guessArrow_no (ready : st.Ready l c ts) (no : NoArrow ts) :
    ∃ st', guessArrow st = .ok .no st' ∧ st'.Ready l c ts := by
  cases no with
  | name n ts =>
    unfold guessArrow
    refine ready.lookahead Guess.no ?_ ready
    have kind : st.token.kind = .word n.text := ready.kind_eq rfl
    have other : (TokenKind.word n.text == .word "async") = false :=
      (Tok.Opens.name n).not_word (by decide)
    simp only [atWord_bind, kind, other, Bool.false_eq_true, if_false, kind_bind]
    rfl
  | unary op ts =>
    unfold guessArrow
    refine ready.lookahead Guess.no ?_ ready
    have kind : st.token.kind = op.tok.kind := ready.kind_eq (by cases op <;> rfl)
    have other : (op.tok.kind == .word "async") = false :=
      (Tok.Opens.unary op).not_word (by decide)
    simp only [atWord_bind, kind, other, Bool.false_eq_true, if_false, kind_bind]
    cases op <;> rfl
  | parens ts => exact guessArrow_paren ready fun inner => guessParens_paren inner
  | parenUnary op ts => exact guessArrow_paren ready fun inner => guessParens_unary op inner
  | parenName n after => exact guessArrow_paren ready fun inner => guessParens_name n inner after

end Read

/-! ## Assignments and conditionals -/

namespace Read

variable {go : Descend} {st : ReadState input} {l : Language} {c : Context} {t : Tok} {ts rest : List Tok}

theorem isYield_false (ready : st.Ready l c (t :: ts)) (opens : t.Opens) :
    isYield st = .ok false st := by
  have kind := ready.kind_eq opens.late
  have other : (t.kind == .word "yield") = false := opens.not_word (by decide)
  unfold isYield
  simp only [atWord_bind, kind, other]
  rfl

theorem asyncSoleArrow_none (resultType : Bool) (ready : st.Ready l c (t :: ts)) (opens : t.Opens) :
    asyncSoleArrow go resultType st = .ok none st := by
  have kind := ready.kind_eq opens.late
  have other : (t.kind == .word "async") = false := opens.not_word (by decide)
  unfold asyncSoleArrow
  simp only [atWord_bind, kind, other]
  rfl

/-- A term is read from its first operand on. -/
theorem assignment_term (go : Descend) (resultType : Bool) (ready : st.Ready l c (t :: ts)) (opens : t.Opens)
    (no : NoArrow (t :: ts)) :
    ∃ st', assignment go resultType st = (go (.binary .comma) >>= fun left =>
        assignmentRest go st.token left resultType) st' ∧ st'.Ready l c (t :: ts) := by
  obtain ⟨st', guess, ready'⟩ := guessArrow_no ready no
  refine ⟨st', ?_, ready'⟩
  have arrow : parenthesizedArrow go resultType st = .ok none st' := by
    unfold parenthesizedArrow
    rw [bind_ok guess]
    rfl
  unfold assignment
  simp only [token_bind]
  rw [bind_ok (isYield_false ready opens)]
  simp only [Bool.false_eq_true, if_false]
  rw [bind_ok arrow]
  simp only
  rw [bind_ok (asyncSoleArrow_none resultType ready' opens)]

theorem assignmentRest_conditional {t : Token} (left : Node) (resultType : Bool)
    (inert : t.inert = false) (pure : t.pure = false) (kind : st.token.kind.closes = true ∨
      st.token.kind = .punct .question) :
    assignmentRest go t left resultType st = conditionalRest go t.start left resultType st := by
  have noArrow : st.token.kind ≠ .punct .arrow := by
    intro same
    rw [same] at kind
    revert kind
    decide
  have noAssign : assignOf st.token.kind = none := by
    rcases kind with closes | question
    · cases same : st.token.kind with
      | punct p =>
        rw [same] at closes
        cases p <;> first
          | rfl
          | cases closes
      | _ => rfl
    · rw [question]
      rfl
  unfold assignmentRest
  simp only [kind_bind, noAssign, inertFrom, inert, pure, Bool.false_eq_true, if_false]
  refine congrFun (?_ : _ = conditionalRest go t.start left resultType) st
  split
  next same => exact absurd same noArrow
  · exact bind_pure _

theorem conditionalRest_none (s : Nat) (test : Node) (resultType : Bool) (ready : st.Ready l c rest)
    (closed : closes rest) : conditionalRest go s test resultType st = .ok test st := by
  have kind := ready.kind_closes closed
  have other : (st.token.kind == .punct .question) = false := by
    refine beq_false_of_ne ?_
    intro same
    rw [same] at kind
    cases kind
  unfold conditionalRest
  rw [bind_ok (eat_other other)]
  rfl

theorem conditionalRest_read {d : Nat} {yes no : Term} (s : Nat) (test : Node) (resultType : Bool)
    (readYes : yes.ReadBy (descend d)) (readNo : no.ReadBy (descend d)) (allowed : c.allowIn = true)
    (closed : closes rest)
    (ready : st.Ready l c (.mark .question :: (yes.toks ++ .mark .colon :: (no.toks ++ rest)))) :
    ∃ y n span st', conditionalRest (descend d) s test resultType st =
        .ok (.mk .conditional .value span [test, y, n]) st' ∧
      y.Reads yes false ∧ n.Reads no false ∧ st'.Ready l c rest := by
  obtain ⟨st₁, asked, ready₁⟩ := ready.eat (p := .question) rfl
  have colon : closes (.mark .colon :: (no.toks ++ rest)) := by
    intro t first
    cases first
    rfl
  obtain ⟨y, st₂, first, readsYes, ready₂⟩ := ready₁.beforeMark (P := fun n => n.Reads yes false)
    (r := within (fun c => { c with allowIn := true }) (descend d (.assignment false)))
    fun st' inner => inner.within fun st'' inside => readYes false rfl colon inside
  obtain ⟨st₃, between, ready₃⟩ := ready₂.expect (p := .colon) rfl
  obtain ⟨n, st₄, second, readsNo, ready₄⟩ := readNo resultType allowed closed ready₃
  refine ⟨y, n, ⟨⟨s, st₄.lastStop⟩, []⟩, st₄, ?_, readsYes, readsNo, ready₄⟩
  unfold conditionalRest
  rw [bind_ok asked]
  simp only [if_true]
  rw [bind_ok first, bind_ok between, bind_ok second]
  rfl

end Read

namespace Term

variable {d : Nat}

theorem stops_of_closes (above : Strength) {ts : List Tok} (closed : closes ts) : stops above ts := by
  intro t first op found
  have kind := closed t first
  cases t with
  | word w => cases kind
  | mark p => cases p <;> first | (cases found; done) | cases kind

theorem ends_of_closes (e : Term) {ts : List Tok} (closed : closes ts) : e.ends ts := by
  cases e <;> first | exact trivial | exact stops_of_closes _ closed

/-- A term other than a conditional is read as it is, wherever an assignment may stand. -/
theorem readBy_of_looped {e : Term} (looped : e.LoopedBy d .comma e.toks false) :
    e.ReadBy (Read.descend (d + 2)) := by
  intro l c rest st resultType allowed closed ready
  obtain ⟨t, us, first, opens⟩ := e.opens
  have no := e.noArrow.append rest
  rw [first, List.cons_append] at ready no
  obtain ⟨st₁, same, ready₁⟩ := Read.assignment_term (Read.descend (d + 1)) resultType ready opens no
  rw [← List.cons_append, ← first] at ready₁
  obtain ⟨node, st₂, done, reads, ready₂⟩ := looped.finish allowed (follows_of_closes closed)
    (fun _ => e.ends_of_closes closed) (stops_of_closes _ closed) ready₁
  refine ⟨node, st₂, ?_, reads, ready₂⟩
  change Read.assignment (Read.descend (d + 1)) resultType st = _
  rw [same, Read.bind_ok done, Read.assignmentRest_conditional node resultType ready.inert
    ready.pure (Or.inl (ready₂.kind_closes closed)),
    Read.conditionalRest_none _ node resultType ready₂ closed]

theorem readBy_conditional {test yes no : Term} {w : Bool}
    (looped : test.LoopedBy d .comma (enclose w test.toks) w) (wrapped : w = test.isWrapped .conditional)
    (ends : ∀ rest, w = false → test.ends (.mark .question :: rest))
    (readYes : yes.ReadBy (Read.descend (d + 1))) (readNo : no.ReadBy (Read.descend (d + 1))) :
    (conditional test yes no).ReadBy (Read.descend (d + 2)) := by
  intro l c rest st resultType allowed closed ready
  obtain ⟨t, us, first, opens⟩ := (conditional test yes no).opens
  have arrow := (conditional test yes no).noArrow.append rest
  rw [first, List.cons_append] at ready arrow
  obtain ⟨st₁, same, ready₁⟩ := Read.assignment_term (Read.descend (d + 1)) resultType ready
    opens arrow
  rw [← List.cons_append, ← first, toks, ← wrapped] at ready₁
  simp only [List.append_assoc, List.cons_append] at ready₁
  have question : follows (.mark .question :: (yes.toks ++ .mark .colon :: (no.toks ++ rest))) := by
    intro t first
    cases first
    rfl
  have stop : stops .comma (.mark .question :: (yes.toks ++ .mark .colon :: (no.toks ++ rest))) := by
    intro t first op found
    cases first
    cases found
  obtain ⟨node, st₂, done, reads, ready₂⟩ := looped.finish allowed question (ends _) stop ready₁
  obtain ⟨y, n, span, st₃, rest₃, readsYes, readsNo, ready₃⟩ :=
    Read.conditionalRest_read (d := d + 1) st.token.start node resultType readYes readNo allowed
      closed ready₂
  refine ⟨.mk .conditional .value span [node, y, n], st₃, ?_, ⟨?_, rfl⟩, ready₃⟩
  · change Read.assignment (Read.descend (d + 1)) resultType st = _
    rw [same, Read.bind_ok done, Read.assignmentRest_conditional node resultType ready.inert
      ready.pure (Or.inr (ready₂.kind_eq rfl)), rest₃]
  · rw [Node.bare_mk _ _ _ (by simp)]
    simp only [List.map_cons, List.map_nil, reads.tree, readsYes.tree, readsNo.tree, regroup,
      Term.node, expr]

end Term

end Splice
