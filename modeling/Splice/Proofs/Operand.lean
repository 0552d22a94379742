import Splice.Proofs.Reading
import Splice.Proofs.Spelling

/-!
# Reading operands

What may begin a term and what may follow it, and the rules for the parts of a term that bind
tightest: names, parentheses, member accesses, calls and their arguments.
-/
namespace Splice

variable {input : Source}

/-! ## What begins and what follows a term -/

namespace TokenKind

/-- What ends an expression: closing marks and separators. -/
def closes : TokenKind → Bool
  | .eof => true
  | .punct p => [.rparen, .comma, .colon, .semicolon].contains p
  | _ => false

/-- What may follow an operand: what ends an expression, a question mark, an equals sign,
operators. -/
def follows (k : TokenKind) : Bool :=
  k.closes || k == .punct .question || k == .punct .eq || Read.isBinaryOperator k

end TokenKind

/-- The tokens after an expression. -/
def closes (ts : List Tok) : Prop := ∀ t ∈ ts.head?, t.kind.closes = true

/-- The tokens after an operand. -/
def follows (ts : List Tok) : Prop := ∀ t ∈ ts.head?, t.kind.follows = true

/-- Here the text ends, or parentheses do. -/
def ended (ts : List Tok) : Prop := ∀ t ∈ ts.head?, t = .mark .rparen

theorem closes_of_ended {ts : List Tok} (ends : ended ts) : closes ts := by
  intro t first
  rw [ends t first]
  decide

theorem follows_of_closes {ts : List Tok} (closed : closes ts) : follows ts := by
  intro t first
  simp [TokenKind.follows, closed t first]

/-- The tokens that may begin a term. -/
inductive Tok.Opens : Tok → Prop where
  | name (n : Name) : Opens (.word n.toWord)
  | paren : Opens (.mark .lparen)
  | unary (op : UnaryOp) : Opens op.tok

theorem Tok.Opens.late {t : Tok} (opens : t.Opens) : t.late = [] := by
  cases opens with
  | name | paren => rfl
  | unary op => cases op <;> rfl

theorem Tok.Opens.not_mark {t : Tok} (opens : t.Opens) {p : Punct}
    (other : [Punct.lparen, .plus, .minus, .bang, .tilde].contains p = false) :
    (t.kind == .punct p) = false := by
  refine beq_false_of_ne ?_
  intro same
  cases opens with
  | name n => cases same
  | paren =>
    cases same
    cases other
  | unary op =>
    cases op <;> cases same
    all_goals cases other

theorem opens_enclose {needed : Bool} {ts : List Tok} (opens : ∃ t us, ts = t :: us ∧ t.Opens) :
    ∃ t us, enclose needed ts = t :: us ∧ t.Opens := by
  obtain ⟨t, us, rfl, opens⟩ := opens
  cases needed with
  | true => exact ⟨_, _, rfl, .paren⟩
  | false => exact ⟨t, us, rfl, opens⟩

theorem Term.opens (e : Term) : ∃ t ts, e.toks = t :: ts ∧ t.Opens := by
  have append : ∀ {ts us : List Tok}, (∃ t vs, ts = t :: vs ∧ t.Opens) →
      ∃ t vs, ts ++ us = t :: vs ∧ t.Opens := by
    rintro _ us ⟨t, vs, rfl, opens⟩
    exact ⟨t, vs ++ us, rfl, opens⟩
  induction e using Term.induction_on with
  | name n => exact ⟨_, _, rfl, .name n⟩
  | member o f ih => exact append (opens_enclose ih)
  | call f as ih _ => exact append (opens_enclose ih)
  | unary op x _ => exact ⟨_, _, rfl, .unary op⟩
  | binary op l r ih _ => exact append (opens_enclose ih)
  | logical op l r ih _ => exact append (opens_enclose ih)
  | conditional t y n ih _ _ => exact append (opens_enclose ih)

namespace ReadState.Ready

variable {st : ReadState input} {l : Language} {c : Context} {ts : List Tok}

theorem kind_follows (ready : st.Ready l c ts) (next : follows ts) :
    st.token.kind.follows = true := by
  cases ts with
  | nil =>
    rw [ready.kind_nil]
    rfl
  | cons t ts =>
    rcases ready.kind_cases with kind | ⟨-, kind⟩
    · rw [kind]
      exact next t rfl
    · rw [kind]
      rfl

theorem kind_ended (ready : st.Ready l c ts) (ends : ended ts) :
    st.token.kind = .eof ∨ st.token.kind = .punct .rparen := by
  cases ts with
  | nil => exact .inl ready.kind_nil
  | cons t ts =>
    obtain rfl := ends t rfl
    exact .inr (ready.kind_eq rfl)

theorem kind_closes (ready : st.Ready l c ts) (closed : closes ts) :
    st.token.kind.closes = true := by
  cases ts with
  | nil =>
    rw [ready.kind_nil]
    rfl
  | cons t ts =>
    have kind := closed t rfl
    rcases ready.kind_cases with whole | ⟨late, -⟩
    · rw [whole]
      exact kind
    · cases t with
      | word w => exact absurd rfl late
      | mark p => cases p <;> first | exact absurd rfl late | cases kind

/-- In typed sources, no type arguments begin here. -/
theorem kind_not_angle (ready : st.Ready l c ts) (typed : st.language.typed = true) :
    st.token.kind ≠ .punct .lt ∧ st.token.kind ≠ .punct .shl ∧ st.token.kind ≠ .punct .shlEq := by
  rw [ready.language] at typed
  cases ts with
  | nil => simp [ready.kind_nil]
  | cons t ts =>
    have plain := ready.angles typed t (by simp)
    rcases ready.kind_cases with kind | ⟨-, kind⟩
    · rw [kind]
      refine ⟨?_, ?_, ?_⟩ <;>
      · intro same
        cases t with
        | word w => cases same
        | mark p =>
          cases same
          cases plain
    · simp [kind]

end ReadState.Ready

/-! ## Trees of terms -/

/-- The node is a tree of the term, and it stands in parentheses or does not. -/
structure Node.Reads (n : Node) (e : Term) (wrapped : Bool) : Prop where
  tree : n.bare = e.regroup.node
  parens : n.isParens = wrapped

namespace Node.Reads

variable {n : Node} {e : Term} {wrapped : Bool}

theorem form_parens (reads : n.Reads e true) : n.form = .parens := by
  have parens := reads.parens
  unfold Node.isParens at parens
  split at parens
  next form => exact form
  · cases parens

/-- No term is of these forms, whether it stands in parentheses or not. -/
theorem form_ne (reads : n.Reads e wrapped) :
    n.form ≠ .instantiation ∧ (∀ t, n.form ≠ .arrow t) ∧ n.form ≠ .await := by
  cases wrapped with
  | true => simp [reads.form_parens]
  | false =>
    have form := Node.form_of_bare reads.tree reads.parens
    rw [form]
    cases e.regroup <;> simp [Term.node, Term.expr, Node.form]

theorem wrap (reads : n.Reads e wrapped) (spans : Spans) :
    (Node.mk .parens .value spans [n]).Reads e true where
  tree := by
    rw [Node.bare_parens _ _ (by rw [reads.tree, Term.place_node]), reads.tree]
  parens := rfl

end Node.Reads

/-- Trees of terms, one after the other. -/
inductive AllRead : List Node → List Term → Prop where
  | nil : AllRead [] []
  | cons {n : Node} {e : Term} {ns : List Node} {es : List Term} :
    n.Reads e false → AllRead ns es → AllRead (n :: ns) (e :: es)

theorem AllRead.bare {ns : List Node} {es : List Term} (all : AllRead ns es) :
    ns.map Node.bare = (es.map Term.regroup).map Term.node := by
  induction all with
  | nil => rfl
  | cons reads _ ih => simp only [List.map_cons, reads.tree, ih]

/-! ## Names -/

theorem Name.text_ne (n : Name) {w : String} (taken : (isReservedWord w ||
    ["await", "yield", "async"].contains w) = true) : n.text ≠ w := by
  rintro rfl
  rw [n.free, n.plain] at taken
  cases taken

namespace Read

section Names

variable (go : Descend) {st : ReadState input} {l : Language} {c : Context} {ts : List Tok}

theorem primary_name (n : Name) (ready : st.Ready l c (.word n.toWord :: ts)) :
    ∃ m st', primary go st = .ok m st' ∧ m.Reads (.name n) false ∧ st'.Ready l c ts := by
  have kind : st.token.kind = .word n.text := ready.kind_eq rfl
  have chosen : primary go st = identifier st := by
    unfold primary
    simp only [kind_bind, kind]
    refine congrFun (?_ : _ = identifier) st
    split <;> first
      | rfl
      | (rename_i same; exact absurd same (n.text_ne (by decide)))
  obtain ⟨st', moved, ready'⟩ := ready.bumpName kind
  refine ⟨.mk (.identifier n.text) .value ⟨⟨st.token.start, st.token.stop⟩, []⟩ [], st', ?_, ⟨rfl, rfl⟩, ready'⟩
  rw [chosen]
  unfold identifier
  have name : nameWord? st.token.kind = some n.text := by
    rw [kind, nameWord?, n.free]
    rfl
  have usable : checkName n.text st.context st = .ok () st := by
    unfold checkName
    have await : (n.text == "await") = false := beq_false_of_ne (n.text_ne (by decide))
    have yield : (n.text == "yield") = false := beq_false_of_ne (n.text_ne (by decide))
    simp only [await, yield, Bool.false_and, Bool.false_eq_true, if_false]
    rfl
  simp only [token_bind, name, context_bind]
  rw [bind_ok usable, bind_ok moved]
  rfl

end Names

/-! ## Member accesses and calls -/

section Chains

variable (go : Descend) (s : Nat) {st : ReadState input} {l : Language} {c : Context} {ts : List Tok}

theorem memberStep_none (n : Node) (inChain : Bool) (kind : st.token.kind.follows = true ∨
      st.token.kind = .punct .lparen)
    (angles : st.language.typed = true →
      st.token.kind ≠ .punct .lt ∧ st.token.kind ≠ .punct .shl ∧ st.token.kind ≠ .punct .shlEq) :
    memberStep go s n inChain st = .ok none st := by
  unfold memberStep
  simp only [token_bind, context_bind]
  cases same : st.token.kind with
  | punct p =>
    rw [same] at kind
    cases p <;> first
      | rfl
      | (exfalso; revert kind; decide)
      | simp_all
  | template part q =>
    rw [same] at kind
    simp [TokenKind.follows, TokenKind.closes, isBinaryOperator, operatorOf] at kind
  | _ => rfl

theorem memberRound_done (n : Node × Bool) (none : memberStep go s n.1 n.2 st = .ok none st) :
    memberRound go s n st = .ok (.done n) st := by
  unfold memberRound
  rw [bind_ok none]
  rfl

/-- Where a term ends, no call follows. -/
theorem callStep_done (n : Node) (kind : st.token.kind.follows = true) :
    callStep go s (n, false) st = .ok (.done (n, false)) st := by
  have other : ∀ p : Punct, TokenKind.follows (.punct p) = false →
      (st.token.kind == .punct p) = false := by
    intro p no
    refine beq_false_of_ne ?_
    intro same
    rw [same, no] at kind
    cases kind
  unfold callStep
  simp only
  rw [bind_ok (eat_other (other .questionDot (by decide)))]
  simp only [Bool.false_and, Bool.false_eq_true, if_false, pure_bind_apply, isTyped_bind, isAt_bind,
    other .lparen (by decide), Option.isSome_none, Bool.false_or]
  rfl

/-- The rest of a loop over calls, in the middle of the accesses after one of them: `k` accesses and
`n` calls may still follow. -/
def chainFrom (k n : Nat) (node : Node) : Read (Node × Bool) := do
  let r ← repeatFor (memberRound go s) k (node, false)
  match ← callStep go s r with
  | .done b => return b
  | .more b => repeatFor (callRound go s) n b

theorem repeatFor_callRound (n : Nat) (node : Node) (st : ReadState input) :
    repeatFor (callRound go s) (n + 1) (node, false) st =
      chainFrom go s (st.size - st.token.start + 2) n node st := by
  rw [repeatFor, chainFrom, callRound, memberRest, bind_assoc, bind_apply, bind_apply, iterate_apply]
  cases repeatFor (memberRound go s) (st.size - st.token.start + 2) (node, false) st with
  | error p st' => rfl
  | ok r st' =>
    simp only [bind_apply]
    cases callStep go s r st' with
    | error p st'' => rfl
    | ok step st'' => cases step <;> rfl

theorem chainFrom_done {k n : Nat} {node : Node} (ready : st.Ready l c ts) (next : follows ts) :
    chainFrom go s (k + 1) n node st = .ok (node, false) st := by
  have kind := ready.kind_follows next
  have none := memberStep_none go s node false (.inl kind) ready.kind_not_angle
  have loop : repeatFor (memberRound go s) (k + 1) (node, false) st = .ok (node, false) st :=
    repeatFor_done (memberRound_done go s (node, false) none) k
  unfold chainFrom
  rw [bind_ok loop, bind_ok (callStep_done go s node kind)]
  rfl

/-- One member access. -/
theorem chainFrom_member {k n : Nat} {node : Node} {f : Word}
    (ready : st.Ready l c (.mark .dot :: .word f :: ts)) :
    ∃ spans st', chainFrom go s (k + 1) n node st =
      chainFrom go s k n (.mk (.member f.text false) .value spans [node]) st' ∧
      st'.Ready l c ts := by
  have dot : st.token.kind = .punct .dot := ready.kind_eq rfl
  obtain ⟨st₁, moved, ready₁⟩ := ready.bump dot
  have word : st₁.token.kind = .word f.text := ready₁.kind_eq rfl
  obtain ⟨st₂, taken, ready₂⟩ := ready₁.bumpName word
  let spans : Spans := ⟨⟨s, st₂.lastStop⟩, [⟨st₁.token.start, st₁.token.stop⟩]⟩
  refine ⟨spans, st₂, ?_, ready₂⟩
  have name : memberName s node false st₁ =
      .ok (.mk (.member f.text false) .value spans [node]) st₂ := by
    have read : anyWord st₁ = .ok (f.text, ⟨st₁.token.start, st₁.token.stop⟩) st₂ := by
      unfold anyWord
      simp only [token_bind, word]
      rw [bind_ok taken]
      rfl
    unfold memberName
    simp only [token_bind, word]
    rw [bind_ok read]
    rfl
  have step : memberStep go s node false st =
      .ok (some (.mk (.member f.text false) .value spans [node], false)) st₂ := by
    unfold memberStep
    simp only [token_bind, context_bind, dot]
    rw [bind_ok moved, bind_ok name]
    rfl
  have round : memberRound go s (node, false) st =
      .ok (.more (.mk (.member f.text false) .value spans [node], false)) st₂ := by
    unfold memberRound
    rw [bind_ok step]
    rfl
  unfold chainFrom
  rw [bind_apply, repeatFor_more round, ← bind_apply]

/-- One call. -/
theorem chainFrom_call {k n : Nat} {node : Node} {args : Node} {st' : ReadState input}
    (ready : st.Ready l c (.mark .lparen :: ts)) (plain : node.form ≠ .instantiation)
    (read : arguments go st = .ok args st') :
    chainFrom go s (k + 1) (n + 1) node st =
      chainFrom go s (st'.size - st'.token.start + 2) n
        (.mk (.call false false) .value ⟨⟨s, st'.lastStop⟩, []⟩ [node, .absent, args]) st' := by
  have paren : st.token.kind = .punct .lparen := ready.kind_eq rfl
  have none := memberStep_none go s node false (.inr paren) ready.kind_not_angle
  have loop : repeatFor (memberRound go s) (k + 1) (node, false) st = .ok (node, false) st :=
    repeatFor_done (memberRound_done go s (node, false) none) k
  have step : callStep go s (node, false) st =
      .ok (.more (.mk (.call false false) .value ⟨⟨s, st'.lastStop⟩, []⟩ [node, .absent, args], false)) st' := by
    unfold callStep
    simp only
    rw [bind_ok (eat_other (by rw [paren]; rfl))]
    simp only [Bool.false_and, Bool.false_eq_true, if_false, pure_bind_apply, isTyped_bind,
      isAt_bind, paren, beq_self_eq_true, Option.isSome_none, Bool.or_true, if_true]
    split
    next form _ => exact absurd form plain
    · rw [bind_ok read]
      rfl
  rw [chainFrom, bind_ok loop, bind_ok step]
  exact repeatFor_callRound go s n _ st'

end Chains

end Read

/-! ## Arguments -/

/-- The reader reads the term, wherever an assignment may stand. -/
def Term.ReadBy [input : Source] (go : Descend) (e : Term) : Prop :=
  ∀ ⦃l : Language⦄ ⦃c : Context⦄ ⦃rest : List Tok⦄ ⦃st : ReadState input⦄ (resultType : Bool),
    c.allowIn = true → closes rest → st.Ready l c (e.toks ++ rest) →
    ∃ n st', go (.assignment resultType) st = .ok n st' ∧ n.Reads e false ∧ st'.Ready l c rest

/-- The reader reads the tokens as the term, where nothing but the end of parentheses may follow. -/
def Term.InsideBy [input : Source] (go : Descend) (ts : List Tok) (e : Term) (wrapped : Bool) : Prop :=
  ∀ ⦃l : Language⦄ ⦃c : Context⦄ ⦃rest : List Tok⦄ ⦃st : ReadState input⦄ (resultType : Bool),
    c.allowIn = true → ended rest → st.Ready l c (ts ++ rest) →
    ∃ n st', go (.assignment resultType) st = .ok n st' ∧ n.Reads e wrapped ∧ st'.Ready l c rest

theorem Term.ReadBy.inside {go : Descend} {e : Term} (read : e.ReadBy go) :
    e.InsideBy go e.toks false := by
  intro l c rest st resultType allowed ends ready
  exact read resultType allowed (closes_of_ended ends) ready

namespace Read

section Lists

variable (go : Descend) {st : ReadState input} {l : Language} {c : Context} {rest : List Tok}

theorem atClose_opens {t : Tok} (opens : t.Opens) (kind : st.token.kind = t.kind) :
    atClose .rparen st = .ok false st := by
  unfold atClose
  simp only [kind_bind, kind]
  cases opens with
  | name n => rfl
  | paren => rfl
  | unary op => cases op <;> rfl

theorem spreadable_read {a : Term} (read : a.ReadBy go) (allowed : c.allowIn = true)
    (closed : closes rest) (ready : st.Ready l c (a.toks ++ rest)) :
    ∃ n st', spreadable go st = .ok n st' ∧ n.Reads a false ∧ st'.Ready l c rest := by
  obtain ⟨t, us, first, opens⟩ := a.opens
  have kind : st.token.kind = t.kind := by
    rw [first] at ready
    exact ready.kind_eq opens.late
  obtain ⟨n, st', done, reads, ready'⟩ := read true allowed closed ready
  refine ⟨n, st', ?_, reads, ready'⟩
  unfold spreadable
  simp only [start_bind]
  rw [bind_ok (eat_other (by rw [kind]; exact opens.not_mark (by decide)))]
  exact done

/-- The arguments after the first one. -/
theorem nextItems_read (as : List Term) (each : ∀ a ∈ as, a.ReadBy go) (allowed : c.allowIn = true)
    (acc : List Node) (n : Nat) (st : ReadState input)
    (ready : st.Ready l c (Term.laterToks as ++ .mark .rparen :: rest)) (enough : as.length < n) :
    ∃ ns st', repeatFor (fun (acc, _) => nextItem .rparen .comma (spreadable go) acc) n
        ((acc, false) : List Node × Bool) st = .ok (ns.reverse ++ acc, false) st' ∧
      AllRead ns as ∧ st'.Ready l c (.mark .rparen :: rest) := by
  induction as generalizing acc n st with
  | nil =>
    obtain ⟨n, rfl⟩ : ∃ m, n = m + 1 := ⟨n - 1, by simp at enough; omega⟩
    have kind : st.token.kind = .punct .rparen := ready.kind_eq rfl
    refine ⟨[], st, ?_, .nil, ready⟩
    have close : atClose .rparen st = .ok true st := by
      unfold atClose
      simp only [kind_bind, kind]
      rfl
    refine repeatFor_done ?_ n
    simp only [nextItem]
    rw [bind_ok close]
    rfl
  | cons a as ih =>
    obtain ⟨n, rfl⟩ : ∃ m, n = m + 1 := ⟨n - 1, by simp at enough; omega⟩
    rw [Term.laterToks, List.cons_append, List.append_assoc] at ready
    have kind : st.token.kind = .punct .comma := ready.kind_eq rfl
    obtain ⟨st₁, moved, ready₁⟩ := ready.expect (p := .comma) rfl
    obtain ⟨t, us, first, opens⟩ := a.opens
    have kind₁ : st₁.token.kind = t.kind := by
      rw [first] at ready₁
      exact ready₁.kind_eq opens.late
    have closed : closes (Term.laterToks as ++ .mark .rparen :: rest) := by
      cases as <;> (intro t first; cases first; rfl)
    obtain ⟨m, st₂, read, reads, ready₂⟩ :=
      spreadable_read go (each a (by simp)) allowed closed ready₁
    obtain ⟨ns, st₃, loop, all, ready₃⟩ :=
      ih (fun b inside => each b (by simp [inside])) (m :: acc) n st₂ ready₂
        (by simp at enough; omega)
    refine ⟨m :: ns, st₃, ?_, .cons reads all, ready₃⟩
    have open' : atClose .rparen st = .ok false st := by
      unfold atClose
      simp only [kind_bind, kind]
      rfl
    have step : nextItem .rparen .comma (spreadable go) acc st = .ok (.more (m :: acc, false)) st₂ := by
      have inside : (st₁.token.kind == .punct .rparen) = false := by
        rw [kind₁]
        exact opens.not_mark (by decide)
      unfold nextItem
      rw [bind_ok open']
      simp only [Bool.false_eq_true, if_false]
      rw [bind_ok moved]
      simp only [isAt_bind, inside, Bool.false_eq_true, if_false]
      rw [bind_ok read]
      rfl
    rw [repeatFor_more (b := (m :: acc, false)) step, loop]
    simp

theorem length_laterToks (as : List Term) : as.length ≤ (Term.laterToks as).length := by
  induction as with
  | nil => simp
  | cons a as ih =>
    simp only [Term.laterToks, List.length_cons, List.length_append]
    omega

theorem separated_read (as : List Term) (each : ∀ a ∈ as, a.ReadBy go) (allowed : c.allowIn = true)
    (ready : st.Ready l c (Term.argumentToks as ++ .mark .rparen :: rest)) :
    ∃ ns st', separated .rparen .comma (spreadable go) st = .ok (ns, false) st' ∧
      AllRead ns as ∧ st'.Ready l c (.mark .rparen :: rest) := by
  cases as with
  | nil =>
    have kind : st.token.kind = .punct .rparen := ready.kind_eq rfl
    have close : atClose .rparen st = .ok true st := by
      unfold atClose
      simp only [kind_bind, kind]
      rfl
    refine ⟨[], st, ?_, .nil, ready⟩
    unfold separated
    rw [bind_ok close]
    rfl
  | cons a as =>
    rw [Term.argumentToks, List.append_assoc] at ready
    obtain ⟨t, us, first, opens⟩ := a.opens
    have kind : st.token.kind = t.kind := by
      rw [first] at ready
      exact ready.kind_eq opens.late
    have closed : closes (Term.laterToks as ++ .mark .rparen :: rest) := by
      cases as <;> (intro t first; cases first; rfl)
    obtain ⟨m, st₁, read, reads, ready₁⟩ :=
      spreadable_read go (each a (by simp)) allowed closed ready
    have enough : as.length < st₁.size - st₁.token.start + 2 := by
      have bound := ready₁.length_le
      have items := length_laterToks as
      rw [List.length_append] at bound
      omega
    obtain ⟨ns, st₂, loop, all, ready₂⟩ := nextItems_read go as
      (fun b inside => each b (by simp [inside])) allowed [m] _ st₁ ready₁ enough
    refine ⟨m :: ns, st₂, ?_, .cons reads all, ready₂⟩
    unfold separated
    rw [bind_ok (atClose_opens opens kind)]
    simp only [Bool.false_eq_true, if_false]
    rw [bind_ok read, bind_apply, iterate_apply, loop]
    simp

theorem arguments_read (as : List Term) (each : ∀ a ∈ as, a.ReadBy go)
    (ready : st.Ready l c (.mark .lparen :: (Term.argumentToks as ++ .mark .rparen :: rest))) :
    ∃ ns spans st', arguments go st = .ok (.mk .group .part spans ns) st' ∧ AllRead ns as ∧
      st'.Ready l c rest := by
  obtain ⟨st₁, moved, ready₁⟩ := ready.expect (p := .lparen) rfl
  obtain ⟨⟨ns, comma⟩, st₂, list, ⟨all, rfl⟩, ready₂⟩ :=
    ready₁.within (P := fun r => AllRead r.1 as ∧ r.2 = false) (u := .mark .rparen :: rest)
      (f := fun c => { c with allowIn := true, inDecorator := false })
      (r := separated .rparen .comma (spreadable go)) fun st' inner => by
        obtain ⟨ns, st'', read, all, ready''⟩ := separated_read go as each rfl inner
        exact ⟨(ns, false), st'', read, ⟨all, rfl⟩, ready''⟩
  obtain ⟨st₃, closed, ready₃⟩ := ready₂.expect (p := .rparen) rfl
  refine ⟨ns, ⟨⟨st.token.start, st₃.lastStop⟩, []⟩, st₃, ?_, all, ready₃⟩
  unfold arguments
  simp only [start_bind]
  rw [bind_ok moved, enclosed, bind_ok list]
  simp only
  rw [bind_ok closed]
  rfl

end Lists

section Parentheses

variable (go : Descend) {st : ReadState input} {l : Language} {c : Context} {ts rest : List Tok}
  {e : Term} {wrap : Bool}

theorem atClose_rparen (ready : st.Ready l c (.mark .rparen :: rest)) :
    atClose .rparen st = .ok true st := by
  have kind : st.token.kind = .punct .rparen := ready.kind_eq rfl
  unfold atClose
  simp only [kind_bind, kind]
  rfl

/-- A single item before the closing parenthesis. -/
theorem separated_single (begins : ∃ t us, ts = t :: us ∧ t.Opens) (read : e.InsideBy go ts wrap)
    (allowed : c.allowIn = true) (ready : st.Ready l c (ts ++ .mark .rparen :: rest)) :
    ∃ n st', separated .rparen .comma (go (.assignment true)) st = .ok ([n], false) st' ∧
      n.Reads e wrap ∧ st'.Ready l c (.mark .rparen :: rest) := by
  obtain ⟨t, us, rfl, opens⟩ := begins
  have kind : st.token.kind = t.kind := ready.kind_eq opens.late
  have ends : ended (.mark .rparen :: rest) := by
    intro t first
    cases first
    rfl
  obtain ⟨n, st₁, done, reads, ready₁⟩ := read true allowed ends ready
  have stop : nextItem .rparen .comma (go (.assignment true)) [n] st₁ =
      .ok (.done ([n], false)) st₁ := by
    unfold nextItem
    rw [bind_ok (atClose_rparen ready₁)]
    rfl
  refine ⟨n, st₁, ?_, reads, ready₁⟩
  unfold separated
  rw [bind_ok (atClose_opens opens kind)]
  simp only [Bool.false_eq_true, if_false]
  rw [bind_ok done, bind_apply, iterate_apply, repeatFor_done (b := ([n], false)) stop]
  rfl

theorem parenthesized_read (begins : ∃ t us, ts = t :: us ∧ t.Opens) (read : e.InsideBy go ts wrap)
    (ready : st.Ready l c (.mark .lparen :: (ts ++ .mark .rparen :: rest))) :
    ∃ n st', parenthesized go st = .ok n st' ∧ n.Reads e true ∧ st'.Ready l c rest := by
  obtain ⟨st₁, moved, ready₁⟩ := ready.expect (p := .lparen) rfl
  obtain ⟨r, st₂, list, ⟨n, rfl, reads⟩, ready₂⟩ :=
    ready₁.within (P := fun r => ∃ n, r = ([n], false) ∧ n.Reads e wrap)
      (u := .mark .rparen :: rest)
      (f := fun c => { c with allowIn := true, inDecorator := false })
      (r := separated .rparen .comma (go (.assignment true))) fun st' inner => by
        obtain ⟨n, st'', done, reads, ready''⟩ := separated_single go begins read rfl inner
        exact ⟨_, st'', done, ⟨n, rfl, reads⟩, ready''⟩
  obtain ⟨st₃, shut, ready₃⟩ := ready₂.expect (p := .rparen) rfl
  refine ⟨.mk .parens .value ⟨⟨st.token.start, st₃.lastStop⟩, []⟩ [n], st₃, ?_, reads.wrap _, ready₃⟩
  have same : wrapped n = n := by
    unfold wrapped
    split
    next t form => exact absurd form (reads.form_ne.2.1 t)
    · rfl
  unfold parenthesized
  simp only [start_bind]
  rw [bind_ok moved]
  simp only [start_bind]
  rw [enclosed, bind_ok list]
  simp only [Bool.false_eq_true, if_false]
  rw [bind_ok shut, same]
  rfl

end Parentheses

end Read

/-! ## Chains of accesses and calls -/

/-- The tokens are read as the term, up to the accesses and calls that may still follow. -/
def Term.ChainedBy [input : Source] (go : Descend) (ts : List Tok) (e : Term) (wrapped : Bool) : Prop :=
  ∀ ⦃l : Language⦄ ⦃c : Context⦄ ⦃rest : List Tok⦄ ⦃st : ReadState input⦄ (s : Nat),
    c.allowIn = true → st.Ready l c (ts ++ rest) →
    ∃ k n node st', (Read.primary go >>= fun first => Read.callRest go s first false) st =
        Read.chainFrom go s k n node st' ∧
      node.Reads e wrapped ∧ st'.Ready l c rest ∧ rest.length < k ∧ rest.length < n

namespace Term

variable {go : Descend}

theorem chained_of_primary {ts : List Tok} {e : Term} {wrapped : Bool}
    (read : ∀ {l : Language} {c : Context} {rest : List Tok} {st : ReadState input},
      c.allowIn = true → st.Ready l c (ts ++ rest) →
      ∃ node st', Read.primary go st = .ok node st' ∧ node.Reads e wrapped ∧ st'.Ready l c rest) :
    e.ChainedBy go ts wrapped := by
  intro l c rest st s allowed ready
  obtain ⟨node, st', first, reads, ready'⟩ := read allowed ready
  have bound := ready'.length_le
  refine ⟨st'.size - st'.token.start + 2, st'.size - st'.token.start + 1, node, st', ?_, reads, ready',
    by omega, by omega⟩
  rw [Read.bind_ok first, Read.callRest, Read.iterate_apply]
  exact Read.repeatFor_callRound go s _ node st'

theorem chained_name (n : Name) : (name n).ChainedBy go (name n).toks false :=
  chained_of_primary fun _ ready => Read.primary_name go n ready

theorem chained_parens {ts : List Tok} {e : Term} {wrapped : Bool}
    (begins : ∃ t us, ts = t :: us ∧ t.Opens) (read : e.InsideBy go ts wrapped) :
    e.ChainedBy go (enclose true ts) true := by
  refine chained_of_primary ?_
  intro l c rest st _ ready
  simp only [enclose, if_true, List.cons_append, List.append_assoc, List.nil_append] at ready
  have kind : st.token.kind = .punct .lparen := ready.kind_eq rfl
  obtain ⟨n, st', done, reads, ready'⟩ := Read.parenthesized_read go begins read ready
  refine ⟨n, st', ?_, reads, ready'⟩
  rw [← done, Read.primary]
  simp only [Read.kind_bind, kind]

theorem chained_member {o : Term} {wrapped : Bool} {ts : List Tok} (object : o.ChainedBy go ts wrapped)
    (f : Word) : (member o f).ChainedBy go (ts ++ [.mark .dot, .word f]) false := by
  intro l c rest st s allowed ready
  rw [List.append_assoc] at ready
  obtain ⟨k, n, node, st₁, same, reads, ready₁, accesses, calls⟩ := object s allowed ready
  obtain ⟨k, rfl⟩ : ∃ m, k = m + 1 := ⟨k - 1, by omega⟩
  obtain ⟨spans, st₂, step, ready₂⟩ := Read.chainFrom_member go s ready₁
  simp only [List.cons_append, List.nil_append, List.length_cons] at accesses calls
  refine ⟨k, n, _, st₂, same.trans step, ⟨?_, rfl⟩, ready₂, by omega, by omega⟩
  rw [Node.bare_mk _ _ _ (by simp)]
  simp only [List.map_cons, List.map_nil, reads.tree, regroup, Term.node, expr]

theorem chained_call {f : Term} {wrapped : Bool} {ts : List Tok} (callee : f.ChainedBy go ts wrapped)
    (as : List Term) (each : ∀ a ∈ as, a.ReadBy go) :
    (call f as).ChainedBy go (ts ++ .mark .lparen :: (argumentToks as ++ [.mark .rparen])) false := by
  intro l c rest st s allowed ready
  simp only [List.append_assoc, List.cons_append, List.nil_append] at ready
  obtain ⟨k, n, node, st₁, same, reads, ready₁, accesses, calls⟩ := callee s allowed ready
  obtain ⟨k, rfl⟩ : ∃ m, k = m + 1 := ⟨k - 1, by omega⟩
  obtain ⟨n, rfl⟩ : ∃ m, n = m + 1 := ⟨n - 1, by omega⟩
  obtain ⟨ns, spans, st₂, done, all, ready₂⟩ := Read.arguments_read go as each ready₁
  have step := Read.chainFrom_call go s (k := k) (n := n) ready₁ reads.form_ne.1 done
  have bound := ready₂.length_le
  simp only [List.length_cons, List.length_append] at accesses calls
  refine ⟨_, n, _, st₂, same.trans step, ⟨?_, rfl⟩, ready₂, by omega, by omega⟩
  have group : (Node.mk .group .part spans ns).bare = .group (ns.map Node.bare) :=
    Node.bare_mk _ _ _ (by simp)
  rw [Node.bare_mk _ _ _ (by simp)]
  simp only [List.map_cons, List.map_nil, reads.tree, Node.bare_absent, group, all.bare, regroup,
    Term.node, expr, nodes_eq, regroupAll_eq]

end Term

end Splice
