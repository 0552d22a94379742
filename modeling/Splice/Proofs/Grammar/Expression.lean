import Splice.Proofs.Grammar.Function

/-!
# Targets and expressions are grammatical
-/
namespace Splice

open Std.Do

set_option mvcgen.warning false

variable {input : Source}

namespace Read

attribute [local simp] Form.Takes Form.Asks Form.assigned Form.Agrees Form.isExpression Form.isAtom
  Form.isOpen Form.isMarked Form.Complete Form.arity Form.pieces Form.sparePieces

variable {go : Descend} [go.Sound]

/-! ## Targets -/

theorem withoutParens_grammatical {n : Node} (grammatical : n.Grammatical) :
    n.withoutParens.Grammatical := by
  induction n using Node.induction_on with
  | step form place spans cs ih =>
    unfold Node.withoutParens
    split
    · cases cs with
      | nil => exact grammatical
      | cons c cs => exact ih c List.mem_cons_self (grammatical.parts c List.mem_cons_self)
    · exact grammatical

@[spec] theorem simpleTarget_spec {n : Node} (grammatical : n.Grammatical) :
    Yields (simpleTarget n) Node.IsAssignable := by
  have target := (withoutParens_grammatical grammatical).withPlace
  have made (root : n.withoutParens.innermost.form.isReference = true) :
      (n.withoutParens.withPlace .part).IsAssignable :=
    ⟨target, Node.isTarget_withPlace root⟩
  mvcgen [simpleTarget]
  all_goals first
    | exact made ‹_›
    | exact made (Node.isReference_innermost (by simp_all +zetaDelta))

theorem coverAll_spec {inObject : Bool} {start : Nat} {cs : List Node}
    (each : ∀ c ∈ cs, ∀ role, Yields (cover role c) Node.IsAssignable) :
    Yields (coverAll inObject start cs) fun ns => ∀ n ∈ ns, n.IsAssignable := by
  induction cs with
  | nil => mvcgen [coverAll]; simp
  | cons c cs ih =>
    have first := each c List.mem_cons_self
    have rest := ih fun d inside => each d (List.mem_cons_of_mem c inside)
    mvcgen [coverAll, first, rest]
    all_goals simp_all

theorem coverFirst_spec {cs : List Node}
    (each : ∀ c ∈ cs, ∀ role, Yields (cover role c) Node.IsAssignable) :
    Yields (coverFirst cs) Node.IsAssignable := by
  unfold coverFirst
  split
  · mvcgen
  · exact each _ List.mem_cons_self _

theorem coverSecond_spec {cs : List Node} (parts : ∀ c ∈ cs, c.Grammatical)
    (each : ∀ c ∈ cs, ∀ role, Yields (cover role c) Node.IsAssignable) :
    Yields (coverSecond cs) fun r => r.1.Grammatical ∧ r.2.IsAssignable := by
  unfold coverSecond
  split
  next k c =>
    have second := each c (by simp)
    mvcgen [second]
    exact ⟨parts k (by simp), ‹_›⟩
  · mvcgen

/-- A pattern is made of targets. -/
theorem pattern_isAssignable {form : Form} {spans : Spans} {ts : List Node}
    (pattern : form.isPattern = true) (takes : form.Takes ts) (agrees : form.Agrees ts)
    (assigned : ∀ t ∈ form.assigned ts, t ∈ ts) (complete : form.Complete spans ts)
    (all : ∀ t ∈ ts, t.IsAssignable) : (Node.mk form .part spans ts).IsAssignable :=
  (Node.isAssignable_mk pattern).mpr
    ⟨takes, ⟨fun t inside => (all t (assigned t inside)).isTarget, agrees⟩, complete,
      fun t inside => (all t inside).grammatical⟩

/-- What stands before a default value in a target is a target already. -/
theorem targetDefault_isAssignable {op : AssignOp} {place : Place} {spans : Spans} {cs : List Node}
    (grammatical : (Node.mk (.assign op) place spans cs).Grammatical) :
    (Node.mk .targetDefault .part spans cs).IsAssignable :=
  (Node.isAssignable_mk rfl).mpr
    ⟨trivial, grammatical.asks, grammatical.complete, grammatical.parts⟩

/-- A shorthand property becomes a target that is the variable of its name. -/
theorem targetShorthand_isAssignable {traits : PropertyTraits} {place : Place} {spans : Spans}
    {key v : Node} (grammatical : (Node.mk (.property traits) place spans [key, v]).Grammatical)
    (shorthand : traits.shorthand = true) :
    (Node.mk .targetShorthand .part spans [v.withPlace .part, .absent]).IsAssignable := by
  obtain ⟨w, s, s', same⟩ := grammatical.asks.2 shorthand
  obtain ⟨-, rfl⟩ : key = _ ∧ v = .mk (.identifier w) .value s' [] := by
    simpa [Node.children] using same
  have name := (grammatical.parts _ (List.mem_cons_of_mem _ List.mem_cons_self)).withPlace
  refine (Node.isAssignable_mk rfl).mpr ⟨trivial, ⟨?_, trivial⟩, grammatical.complete, ?_⟩
  · exact List.forall_mem_singleton.mpr (Node.isTarget_withPlace rfl)
  · exact List.forall_mem_cons.mpr
      ⟨name, List.forall_mem_singleton.mpr Node.grammatical_absent⟩

/-- The value of a property becomes the target; its key stays. -/
theorem targetProperty_isAssignable {traits : PropertyTraits} {place : Place} {spans : Spans}
    {cs : List Node} {r : Node × Node}
    (grammatical : (Node.mk (.property traits) place spans cs).Grammatical)
    (parts : r.1.Grammatical ∧ r.2.IsAssignable) :
    (Node.mk (.targetProperty traits.computed) .part spans [r.1, r.2]).IsAssignable := by
  obtain ⟨key, target⟩ := parts
  refine (Node.isAssignable_mk rfl).mpr ⟨trivial, ⟨?_, trivial⟩, ⟨?_, grammatical.complete.2⟩, ?_⟩
  · exact List.forall_mem_singleton.mpr target.isTarget
  · simp
  · exact List.forall_mem_cons.mpr ⟨key, List.forall_mem_singleton.mpr target.grammatical⟩

@[spec] theorem cover_spec {role : TargetRole} {n : Node} (grammatical : n.Grammatical) :
    Yields (cover role n) Node.IsAssignable := by
  induction n using Node.induction_on generalizing role with
  | step form place spans cs ih =>
    have parts : ∀ c ∈ cs, c.Grammatical := grammatical.parts
    have complete : form.Complete spans cs := grammatical.complete
    have each : ∀ c ∈ cs, ∀ role, Yields (cover role c) Node.IsAssignable :=
      fun c inside role => ih c inside (parts c inside)
    have all := fun inObject start => @coverAll_spec _ inObject start cs each
    have first := coverFirst_spec each
    have second := coverSecond_spec parts each
    clear ih each
    unfold cover
    split
    all_goals mvcgen [all, first, second]
    all_goals
      clear all first second
      try subst cs
    all_goals first
      | exact pattern_isAssignable rfl trivial trivial (fun _ => id) (by simpa using complete) ‹_›
      | exact pattern_isAssignable rfl trivial trivial (fun _ => id) (by simpa using complete.2)
          (List.forall_mem_singleton.mpr ‹_›)
      | exact pattern_isAssignable rfl trivial trivial (fun _ => id) (by simpa using complete.2)
          (List.forall_mem_nil _)
      | exact targetDefault_isAssignable grammatical
      | exact targetProperty_isAssignable grammatical ‹_›
      | exact targetShorthand_isAssignable grammatical ‹_›
      | exact (Node.isAssignable_mk rfl).mpr
          ⟨trivial, grammatical.asks, complete, grammatical.parts⟩
      | exact fun _ => grammatical

/-! ## Literals and parentheses -/

@[spec] theorem regexp_spec : Yields regexp Node.IsExpression := by
  mvcgen [regexp]
  all_goals simp_all

@[spec] theorem literal_spec {form : Form} (expression : form.isExpression = true)
    (takes : form.Takes []) (asks : form.Asks []) (complete : ∀ span : Span, form.Complete span []) :
    Yields (literal form) Node.IsExpression := by
  mvcgen [literal]
  simp_all [-Form.Takes, -Form.Asks, -Form.Complete, -Form.isExpression]

@[spec] theorem templateLiteral_spec : Yields (templateLiteral go) Node.IsExpression := by
  mvcgen [templateLiteral, templatePieces_spec]
  all_goals simp_all

theorem wrapped_isExpression {n : Node} (expression : n.IsExpression) :
    (wrapped n).IsExpression := by
  unfold wrapped
  split
  next t same =>
    refine ⟨expression.grammatical.withForm (fun _ => rfl) ?_ (.of_none rfl trivial) ?_, ?_⟩
    · have takes := expression.grammatical.takes
      rw [same] at takes
      exact takes
    · have complete := expression.grammatical.complete
      rw [same] at complete
      exact complete
    · cases n
      rfl
  · exact expression

@[spec] theorem parenthesized_spec : Yields (parenthesized go) Node.IsExpression := by
  have items := @separated_spec _ _ _ .rparen .comma _ (@Descend.Sound.assignment _ go _ true)
  mvcgen +jp [parenthesized, items]
  all_goals
    clear items
    simp_all +decide [-Form.isExpression, wrapped_isExpression]

/-! ## Operands -/

@[spec] theorem arguments_spec : Yields (arguments go) Node.Grammatical := by
  have items := @separated_spec _ _ _ .rparen .comma _ (@spreadable_spec _ go _)
  mvcgen [arguments, items]
  all_goals simp_all

@[spec] theorem importCall_spec {s : Nat} {phase : Option String} :
    Yields (importCall go s phase) Node.IsExpression := by
  mvcgen [importCall]
  all_goals simp_all

@[spec] theorem importExpression_spec : Yields (importExpression go) Node.IsExpression := by
  mvcgen [importExpression]
  all_goals simp_all

@[spec] theorem superExpression_spec : Yields superExpression Node.IsExpression := by
  mvcgen [superExpression]
  all_goals simp_all

/-- An operand and its type arguments, if it has some. -/
theorem operand_grammatical {n : Node} (grammatical : n.Grammatical) :
    (match n.form, n.children with
      | .instantiation, [e, args] => (e, args)
      | _, _ => (n, .absent)).1.Grammatical ∧
    (match n.form, n.children with
      | .instantiation, [e, args] => (e, args)
      | _, _ => (n, .absent)).2.Grammatical := by
  split
  next pair => exact grammatical.of_pair pair
  · exact ⟨grammatical, Node.grammatical_absent⟩

@[spec] theorem newExpression_spec : Yields (newExpression go) Node.IsExpression := by
  unfold newExpression
  refine bind_spec (any _) fun _ _ => bind_spec (any _) fun _ _ => bind_spec (any _) fun _ _ =>
    bind_spec (any _) fun _ _ => ?_
  split
  · mvcgen
    all_goals simp_all
  refine bind_spec Descend.Sound.newTarget fun _ expression => ?_
  have both := operand_grammatical expression.grammatical
  split
  next operand types same =>
    replace both : operand.Grammatical ∧ types.Grammatical :=
      (congrArg (fun p : Node × Node => p.1.Grammatical ∧ p.2.Grammatical) same).mp both
    clear same
    refine bind_spec (any _) fun _ _ => ?_
    extract_lets isOptional afterArguments
    have afterArguments_spec (args : Node) (grammatical : args.Grammatical) :
        Yields (afterArguments args) Node.IsExpression := by
      unfold afterArguments
      clear afterArguments
      mvcgen
      all_goals simp_all
    clear_value afterArguments
    mvcgen [afterArguments_spec]
    all_goals simp_all

@[spec] theorem primary_spec : Yields (primary go) Node.IsExpression := by
  mvcgen [primary]
  all_goals simp_all

/-! ## Members and calls -/

@[spec] theorem expressionTypeArguments_spec : Yields (expressionTypeArguments go)
    fun o => ∀ n ∈ o, n.Grammatical ∧ n.form = .typeArguments := by
  have items := @separated_spec _ _ _ .gt .comma _ (@Descend.Sound.type _ go _)
  have arguments := @attemptSome_spec input _ fun n : Node => n.Grammatical ∧ n.form = .typeArguments
  mvcgen [expressionTypeArguments, arguments, items]
  all_goals
    clear items arguments
    simp_all

@[spec] theorem taggedTemplate_spec {s : Nat} {tag : Node} {inChain : Bool}
    (grammatical : tag.Grammatical) : Yields (taggedTemplate go s tag inChain) Node.IsExpression := by
  mvcgen [taggedTemplate, templatePieces_spec]
  all_goals simp_all
  all_goals exact operand_grammatical grammatical

@[spec] theorem memberName_spec {s : Nat} {object : Node} {isOptional : Bool}
    (expression : object.IsExpression) :
    Yields (memberName s object isOptional) Node.IsExpression := by
  mvcgen [memberName]
  all_goals simp_all [-Form.isExpression]
  all_goals rfl

@[spec] theorem memberIndex_spec {s : Nat} {object : Node} {isOptional : Bool}
    (grammatical : object.Grammatical) :
    Yields (memberIndex go s object isOptional) Node.IsExpression := by
  mvcgen [memberIndex]
  all_goals simp_all

@[spec] theorem memberStep_spec {s : Nat} {n : Node} {inChain : Bool}
    (expression : n.IsExpression) :
    Yields (memberStep go s n inChain) fun o => ∀ r ∈ o, r.1.IsExpression := by
  mvcgen [memberStep]
  all_goals simp_all

@[spec] theorem memberRound_spec {s : Nat} {n : Node × Bool} (expression : n.1.IsExpression) :
    Yields (memberRound go s n) (Step.All fun r => r.1.IsExpression) := by
  mvcgen [memberRound]
  all_goals simp_all

@[spec] theorem memberRest_spec {s : Nat} {n : Node} {inChain : Bool}
    (expression : n.IsExpression) :
    Yields (memberRest go s n inChain) fun r => r.1.IsExpression :=
  iterate_spec _ expression fun _ => memberRound_spec

/-- What is called, with its type arguments. -/
theorem callee_grammatical {n : Node} (grammatical : n.Grammatical) {isOptional : Bool}
    {targs : Option Node} (types : ∀ t ∈ targs, t.Grammatical) :
    (match n.form, n.children with
      | .instantiation, [e, args] => if isOptional then (n, targs) else (e, some args)
      | _, _ => (n, targs)).1.Grammatical ∧
    ((match n.form, n.children with
      | .instantiation, [e, args] => if isOptional then (n, targs) else (e, some args)
      | _, _ => (n, targs)).2.getD .absent).Grammatical := by
  have given := Node.grammatical_getD types
  split
  next pair =>
    split
    · exact ⟨grammatical, given⟩
    · exact grammatical.of_pair pair
  · exact ⟨grammatical, given⟩

@[spec] theorem callStep_spec {s : Nat} {n : Node × Bool} (expression : n.1.IsExpression) :
    Yields (callStep go s n) (Step.All fun r => r.1.IsExpression) := by
  have made {isOptional : Bool} {targs : Option Node} {args : Node} {span : Span}
      (types : ∀ t ∈ targs, t.Grammatical ∧ t.form = .typeArguments) (list : args.Grammatical) :
      (Node.mk (.call isOptional false) .value ⟨span, []⟩
        [(match n.1.form, n.1.children with
            | .instantiation, [e, args] => if isOptional then (n.1, targs) else (e, some args)
            | _, _ => (n.1, targs)).1,
          (match n.1.form, n.1.children with
            | .instantiation, [e, args] => if isOptional then (n.1, targs) else (e, some args)
            | _, _ => (n.1, targs)).2.getD .absent, args]).IsExpression := by
    obtain ⟨callee, arguments⟩ := @callee_grammatical _ expression.grammatical isOptional targs
      fun t inside => (types t inside).1
    rw [Node.isExpression_mk]
    exact ⟨rfl, trivial, by simp [list, callee, arguments]⟩
  mvcgen [callStep]
  all_goals first
    | exact expression
    | exact made ‹_› ‹_›
    | exact made (fun t inside => absurd inside (Option.not_mem_none t)) ‹_›
    | exact fun _ => False.elim

@[spec] theorem callRound_spec {s : Nat} {n : Node × Bool} (expression : n.1.IsExpression) :
    Yields (callRound go s n) (Step.All fun r => r.1.IsExpression) := by
  mvcgen [callRound]
  exact fun _ => id

@[spec] theorem callRest_spec {s : Nat} {n : Node} {inChain : Bool}
    (expression : n.IsExpression) :
    Yields (callRest go s n inChain) fun r => r.1.IsExpression :=
  iterate_spec _ expression fun _ => callRound_spec

/-- A whole expression becomes the only link of a chain. -/
theorem chain_isExpression {n : Node} (expression : n.IsExpression) :
    (Node.mk .chain .value n.span [n.withPlace .part]).IsExpression := by
  rw [Node.isExpression_mk]
  refine ⟨rfl, ⟨_, rfl, ?_⟩, .of_none rfl trivial, by simp,
    List.forall_mem_singleton.mpr expression.grammatical.withPlace⟩
  cases n
  exact expression.isExpression

/-- The last link of a chain is an access or a call. -/
theorem chained_grammatical {n : Node} (grammatical : n.Grammatical) :
    (match n.form with
      | .member _ _ | .index _ | .privateMember _ _ | .call _ _ | .nonNull =>
        Node.mk .chain .value n.span [n.withPlace .part]
      | _ => n).Grammatical ∧
    (n.form.isExpression = true → (match n.form with
      | .member _ _ | .index _ | .privateMember _ _ | .call _ _ | .nonNull =>
        Node.mk .chain .value n.span [n.withPlace .part]
      | _ => n).form.isExpression = true) := by
  have link (expression : n.form.isExpression = true) :
      (Node.mk .chain .value n.span [n.withPlace .part]).Grammatical :=
    (chain_isExpression ⟨grammatical, expression⟩).grammatical
  split
  all_goals first
    | exact ⟨link (by rw [‹n.form = _›]; rfl), fun _ => rfl⟩
    | exact ⟨grammatical, id⟩

theorem asChain_isExpression {n : Node} (expression : n.IsExpression) :
    (asChain n).IsExpression := by
  unfold asChain
  split
  next e args instantiation pair =>
    obtain ⟨operand, types⟩ := expression.grammatical.of_pair pair
    have takes := expression.grammatical.takes
    rw [instantiation, pair] at takes
    obtain ⟨_, _, same, arguments⟩ := takes
    cases same
    refine ⟨expression.grammatical.withChildren ?_ ?_ (by rw [pair]; rfl) ?_, ?_⟩
    · rw [instantiation]
      exact ⟨_, _, rfl, arguments⟩
    · rw [instantiation]
      exact .of_none rfl trivial
    · simpa using ⟨(chained_grammatical operand).1, types⟩
    · cases n
      exact expression.isExpression
  · obtain ⟨grammatical, chained⟩ := chained_grammatical expression.grammatical
    exact ⟨grammatical, chained expression.isExpression⟩

@[spec] theorem leftHandSide_spec : Yields (leftHandSide go) Node.IsExpression := by
  mvcgen [leftHandSide]
  split
  · exact asChain_isExpression ‹_›
  · assumption

@[spec] theorem newTarget_spec : Yields (newTarget go) Node.IsExpression := by
  mvcgen [newTarget]
  split
  · exact chain_isExpression ‹_›
  · assumption

/-! ## Unary operators -/

@[spec] theorem awaitExpression_spec : Yields (awaitExpression go) Node.IsExpression := by
  mvcgen [awaitExpression]
  all_goals simp_all

@[spec] theorem assertion_spec : Yields (assertion go) Node.IsExpression := by
  mvcgen [assertion]
  all_goals simp_all

@[spec] theorem updateExpression_spec : Yields (updateExpression go) Node.IsExpression := by
  mvcgen [updateExpression]
  all_goals simp_all

@[spec] theorem unaryExpression_spec : Yields (unaryExpression go) Node.IsExpression := by
  mvcgen [unaryExpression]
  all_goals simp_all

/-! ## Binary operators -/

@[spec] theorem privateIn_spec {s : Nat} {name : String} :
    Yields (privateIn go s name) Node.IsExpression := by
  mvcgen [privateIn]
  all_goals simp_all

@[spec] theorem binaryRound_spec {s : Nat} {above : Strength} {left : Node}
    (expression : left.IsExpression) :
    Yields (binaryRound go s above left) (Step.All Node.IsExpression) := by
  mvcgen [binaryRound]
  all_goals simp_all +zetaDelta

@[spec] theorem binaryRest_spec {s : Nat} {first : Node} {above : Strength}
    (expression : first.IsExpression) : Yields (binaryRest go s first above) Node.IsExpression :=
  iterate_spec _ expression fun _ => binaryRound_spec

@[spec] theorem binaryExpression_spec {above : Strength} :
    Yields (binaryExpression go above) Node.IsExpression := by
  mvcgen [binaryExpression]
  all_goals exact fun _ => id

/-! ## Marks for calls and functions -/

theorem length_markPureFirst (cs : List Node) : (markPureFirst cs).length = cs.length := by
  cases cs <;> rfl

theorem markPure_grammatical {n : Node} (grammatical : n.Grammatical) :
    (markPure n).Grammatical ∧ (markPure n).form.isExpression = n.form.isExpression := by
  induction n using Node.induction_on with
  | step form place spans cs ih =>
    obtain ⟨value, takes, asks, complete, parts⟩ := grammatical
    have first : ∀ c ∈ markPureFirst cs, c.Grammatical := by
      cases cs with
      | nil => nofun
      | cons c cs =>
        rw [markPureFirst, List.forall_mem_cons]
        exact ⟨(ih c List.mem_cons_self (parts c List.mem_cons_self)).1,
          fun d inside => parts d (List.mem_cons_of_mem c inside)⟩
    have same := complete.of_length (length_markPureFirst cs)
    unfold markPure
    split
    · exact ⟨.intro value takes asks complete parts, rfl⟩
    · exact ⟨.intro value takes asks complete parts, rfl⟩
    · obtain ⟨c, rfl, expression⟩ := takes
      refine ⟨.intro value ⟨_, rfl, ?_⟩ (.of_none rfl trivial) same first, rfl⟩
      rw [(ih c List.mem_cons_self (parts c List.mem_cons_self)).2, expression]
    · exact ⟨.intro value trivial (.of_none rfl trivial) same first, rfl⟩
    · exact ⟨.intro value trivial (.of_none rfl trivial) same first, rfl⟩
    · exact ⟨.intro value trivial (.of_none rfl trivial) same first, rfl⟩
    · split
      next o _ p s inner rest =>
        obtain ⟨c, same, -⟩ := takes
        obtain ⟨rfl, rfl⟩ := List.cons.inj same
        obtain ⟨expression, calls, -, whole, all⟩ := parts _ List.mem_cons_self
        refine ⟨.intro value ⟨_, rfl, rfl⟩ (.of_none rfl trivial) complete
          (List.forall_mem_singleton.mpr ?_), rfl⟩
        exact .intro expression calls (.of_none rfl trivial) whole all
      · exact ⟨.intro value takes asks complete parts, rfl⟩
    · exact ⟨.intro value takes asks complete parts, rfl⟩

theorem markInert_grammatical {n : Node} (grammatical : n.Grammatical) :
    (markInert n).Grammatical ∧ (markInert n).form.isExpression = n.form.isExpression := by
  induction n using Node.induction_on with
  | step form place spans cs ih =>
    obtain ⟨value, takes, asks, complete, parts⟩ := grammatical
    unfold markInert
    split
    · exact ⟨.intro value takes asks complete parts, rfl⟩
    · exact ⟨.intro value takes asks complete parts, rfl⟩
    · obtain ⟨c, rfl, expression⟩ := takes
      obtain ⟨inner, same⟩ := ih c List.mem_cons_self (parts c List.mem_cons_self)
      refine ⟨.intro value ⟨_, rfl, ?_⟩ (.of_none rfl trivial) complete
        (List.forall_mem_singleton.mpr inner), rfl⟩
      rw [same, expression]
    · exact ⟨.intro value takes asks complete parts, rfl⟩

theorem inertFrom_isExpression {t : Token} {n : Node} (expression : n.IsExpression) :
    (inertFrom t n).IsExpression := by
  unfold inertFrom
  split
  · obtain ⟨grammatical, same⟩ := markInert_grammatical expression.grammatical
    exact ⟨grammatical, same.trans expression.isExpression⟩
  · exact expression

theorem pureFrom_isExpression {t : Token} {n : Node} (expression : n.IsExpression) :
    (if t.pure then markPure n else n).IsExpression := by
  split
  · obtain ⟨grammatical, same⟩ := markPure_grammatical expression.grammatical
    exact ⟨grammatical, same.trans expression.isExpression⟩
  · exact expression

/-! ## Assignments -/

@[spec] theorem yieldExpression_spec : Yields (yieldExpression go) Node.IsExpression := by
  mvcgen [yieldExpression]
  all_goals simp_all

@[spec] theorem conditionalRest_spec {s : Nat} {test : Node} {resultType : Bool}
    (expression : test.IsExpression) :
    Yields (conditionalRest go s test resultType) Node.IsExpression := by
  mvcgen [conditionalRest]
  all_goals simp_all

@[spec] theorem assignmentRest_spec {t : Token} {left : Node} {resultType : Bool}
    (expression : left.IsExpression) :
    Yields (assignmentRest go t left resultType) Node.IsExpression := by
  mvcgen [assignmentRest]
  all_goals simp_all [inertFrom_isExpression, pureFrom_isExpression]

theorem assignment_spec {resultType : Bool} :
    Yields (assignment go resultType) Node.IsExpression := by
  mvcgen [assignment]
  all_goals simp_all [inertFrom_isExpression]

theorem expression_spec : Yields (expression go) Node.IsExpression := by
  have loop := @iterate_spec input (List Node) fun ns => ∀ n ∈ ns, n.IsExpression
  mvcgen [expression, loop]
  all_goals
    clear loop
    simp_all +decide [-Form.isExpression]

end Read

end Splice
