import Splice.Proofs.Enclosed
import Splice.Proofs.Grammar.Declaration
import Splice.Proofs.Grammar.Element

/-!
# Statements and programs are grammatical

With statements every rule of the grammar is covered, so by induction on the depth every phrase is
read as a grammatical tree, and so is a whole program.
-/
namespace Splice

open Std.Do

set_option mvcgen.warning false

variable {input : Source}

namespace Read

attribute [local simp] Form.Takes Form.Asks Form.assigned Form.Agrees Form.isExpression Form.isAtom
  Form.isOpen Form.isMarked Form.Complete Form.arity Form.pieces Form.sparePieces

section Statements

variable {go : Descend} [go.Sound]

@[spec] theorem body_spec : Yields (body go) Node.Grammatical := by
  mvcgen [body]

@[spec] theorem condition_spec : Yields (condition go) Node.IsExpression := by
  mvcgen [condition]

theorem block_spec : Yields (block go) Node.Grammatical := by
  have items := @untilMark_spec _ _ _ .rbrace _ (@Descend.Sound.statement _ go _ false)
  mvcgen [block, items]
  all_goals simp_all

/-! ## Branches -/

@[spec] theorem ifStatement_spec : Yields (ifStatement go) Node.Grammatical := by
  mvcgen [ifStatement]
  all_goals simp_all

@[spec] theorem caseClause_spec : Yields (caseClause go) Node.Grammatical := by
  unfold caseClause
  refine bind_spec (any _) fun _ _ => bind_spec (any _) fun _ _ => ?_
  extract_lets afterTest
  have afterTest_spec (test : Node) (grammatical : test.Grammatical) :
      Yields (afterTest test) Node.Grammatical := by
    unfold afterTest
    clear afterTest
    mvcgen [iterate_nodes_spec]
    all_goals simp_all
  clear_value afterTest
  mvcgen [afterTest_spec]
  all_goals simp_all

@[spec] theorem switchStatement_spec : Yields (switchStatement go) Node.Grammatical := by
  have cases := @untilMark_spec _ _ _ .rbrace _ (@caseClause_spec _ go _)
  mvcgen [switchStatement, cases]
  all_goals simp_all

/-! ## Loops -/

@[spec] theorem doStatement_spec : Yields (doStatement go) Node.Grammatical := by
  mvcgen [doStatement]
  all_goals simp_all

@[spec] theorem whileStatement_spec : Yields (whileStatement go) Node.Grammatical := by
  mvcgen [whileStatement]
  all_goals simp_all

@[spec] theorem forRest_spec {s : Nat} {init : Node} {isAwait : Bool}
    (grammatical : init.Grammatical) : Yields (forRest go s init isAwait) Node.Grammatical := by
  unfold forRest
  refine bind_spec (any _) fun _ _ => ?_
  extract_lets afterTest afterInit
  have afterTest_spec (test : Node) (first : test.Grammatical) :
      Yields (afterTest test) Node.Grammatical := by
    refine bind_spec (any _) fun _ _ => bind_spec (any _) fun _ _ => ?_
    extract_lets afterUpdate
    have afterUpdate_spec (update : Node) (second : update.Grammatical) :
        Yields (afterUpdate update) Node.Grammatical := by
      unfold afterUpdate
      clear afterUpdate afterInit afterTest
      mvcgen
      all_goals simp_all
    clear_value afterUpdate
    clear afterInit
    mvcgen [afterUpdate_spec]
    all_goals simp_all
  clear_value afterTest
  mvcgen [afterTest_spec]
  all_goals simp_all

@[spec] theorem forEachRest_spec {s : Nat} {left : Node} {isAwait : Bool}
    (target : left.IsAssignable) : Yields (forEachRest go s left isAwait) Node.Grammatical := by
  mvcgen [forEachRest]
  all_goals simp_all

@[spec] theorem forVariables_spec {s d : Nat} {kind : VariableKind} {isAwait : Bool} :
    Yields (forVariables go s d kind isAwait) Node.Grammatical := by
  mvcgen [forVariables]
  all_goals simp_all

@[spec] theorem forStatement_spec : Yields (forStatement go) Node.Grammatical := by
  unfold forStatement
  refine bind_spec (any _) fun _ _ => bind_spec (any _) fun _ _ => bind_spec (any _) fun _ _ => ?_
  extract_lets afterAwait afterNote
  have afterAwait_spec (isAwait : Bool) : Yields (afterAwait isAwait) Node.Grammatical := by
    unfold afterAwait
    clear afterNote afterAwait
    mvcgen
    all_goals simp_all
  clear_value afterAwait
  mvcgen [afterAwait_spec]

/-! ## Jumps -/

@[spec] theorem jumpLabel_spec (r : Read (Option (String × Span))) : Yields r fun _ => True := any r

@[spec] theorem jumpStatement_spec {form : Option String → Form} (takes : ∀ l, (form l).Takes [])
    (asks : ∀ l, (form l).Asks [])
    (complete : ∀ l : Option (String × Span), ∀ span : Span,
      (form (l.map Prod.fst)).Complete ⟨span, (l.map Prod.snd).toList⟩ []) :
    Yields (jumpStatement form) Node.Grammatical := by
  mvcgen [jumpStatement]
  exact Node.grammatical_mk.mpr ⟨nofun, takes _, asks _, complete _ _, List.forall_mem_nil _⟩

@[spec] theorem returnStatement_spec : Yields (returnStatement go) Node.Grammatical := by
  mvcgen [returnStatement]
  all_goals simp_all

@[spec] theorem throwStatement_spec : Yields (throwStatement go) Node.Grammatical := by
  mvcgen [throwStatement]
  all_goals simp_all

/-! ## Others -/

@[spec] theorem tryStatement_spec : Yields (tryStatement go) Node.Grammatical := by
  unfold tryStatement
  refine bind_spec (any _) fun _ _ => bind_spec (any _) fun _ _ => ?_
  refine bind_spec Descend.Sound.block fun b block => bind_spec (any _) fun _ _ => ?_
  extract_lets afterCatch
  have afterCatch_spec (handler : Node) (caught : handler.Grammatical) :
      Yields (afterCatch handler) Node.Grammatical := by
    refine bind_spec (any _) fun _ _ => ?_
    extract_lets afterFinally
    have afterFinally_spec (f : Node) (last : f.Grammatical) :
        Yields (afterFinally f) Node.Grammatical := by
      unfold afterFinally
      clear afterFinally
      mvcgen
      all_goals simp_all
    clear_value afterFinally
    mvcgen [afterFinally_spec]
    all_goals simp_all
  clear_value afterCatch
  mvcgen [afterCatch_spec]
  all_goals simp_all

@[spec] theorem withStatement_spec : Yields (withStatement go) Node.Grammatical := by
  mvcgen [withStatement]
  all_goals simp_all

@[spec] theorem expressionStatement_spec : Yields (expressionStatement go) Node.Grammatical := by
  mvcgen [expressionStatement]
  all_goals simp_all

@[spec] theorem scopedVariables_spec {s : Nat} {kind : VariableKind} {single : Bool} :
    Yields (scopedVariables go s kind single) Node.Grammatical := by
  mvcgen [scopedVariables]

@[spec] theorem letStatement_spec {single : Bool} :
    Yields (letStatement go single) Node.Grammatical := by
  mvcgen [letStatement]
  all_goals simp_all

@[spec] theorem functionStatement_spec {single : Bool} :
    Yields (functionStatement go single) Node.Grammatical := by
  mvcgen [functionStatement]
  all_goals simp_all

@[spec] theorem decoratedStatement_spec : Yields (decoratedStatement go) Node.Grammatical := by
  mvcgen [decoratedStatement]
  all_goals simp_all

@[spec] theorem nameStatement_spec {w : String} {single : Bool} :
    Yields (nameStatement go w single) Node.Grammatical := by
  mvcgen [nameStatement]
  all_goals simp_all

@[spec] theorem wordStatement_spec {w : String} {single : Bool} :
    Yields (wordStatement go w single) Node.Grammatical := by
  mvcgen [wordStatement]
  all_goals simp_all [Option.length_toList]

/-- A form that takes two parts also takes them if the second is marked. -/
theorem takes_markInert {form : Form} {b v : Node} (takes : form.Takes [b, v])
    (grammatical : v.Grammatical) : form.Takes [b, markInert v] := by
  cases form with
  | sequence =>
    simp only [Form.Takes, List.forall_mem_cons, (markInert_grammatical grammatical).2] at takes ⊢
    exact takes
  | instantiation =>
    obtain ⟨_, _, same, types⟩ := takes
    cases same
    refine ⟨_, _, rfl, ?_⟩
    obtain ⟨form, place, spans, cs⟩ := v
    obtain rfl : form = .typeArguments := types
    simp [markInert]
  | _ => first | trivial | exact takes | simp [Form.Takes] at takes

/-- Marking a function changes nothing about what is assigned to. -/
theorem root?_markInert (n : Node) : (markInert n).root? = n.root? := by
  induction n using Node.induction_on with
  | step form place spans cs ih =>
    unfold markInert
    split
    · rfl
    · rfl
    · cases cs with
      | nil => rfl
      | cons c cs => exact ih c List.mem_cons_self
    · rfl

theorem isTarget_markInert {n : Node} (target : n.IsTarget) : (markInert n).IsTarget := by
  obtain ⟨part, pattern | root⟩ := target
  · obtain ⟨form, place, spans, cs⟩ := n
    unfold markInert
    split
    · cases pattern
    · cases pattern
    · cases pattern
    · exact ⟨part, .inl pattern⟩
  · refine ⟨?_, .inr (by rwa [root?_markInert])⟩
    rw [← part]
    obtain ⟨form, place, spans, cs⟩ := n
    unfold markInert
    split <;> rfl

theorem asks_markInert {form : Form} {b v : Node} (asks : form.Asks [b, v]) :
    form.Asks [b, markInert v] := by
  obtain ⟨targets, agrees⟩ := asks
  constructor
  · cases form with
    | targetProperty =>
      exact List.forall_mem_singleton.mpr (isTarget_markInert (targets v List.mem_cons_self))
    | arrayTarget | objectTarget =>
      obtain ⟨first, second⟩ := List.forall_mem_cons.mp targets
      refine List.forall_mem_cons.mpr ⟨first, List.forall_mem_singleton.mpr ?_⟩
      exact isTarget_markInert (second v List.mem_cons_self)
    | _ => exact targets
  · cases form with
    | property t =>
      intro shorthand
      obtain ⟨w, s, s', same⟩ := agrees shorthand
      obtain ⟨rfl, rfl⟩ : b = .mk (.name w) .part s [] ∧ v = .mk (.identifier w) .value s' [] := by
        simpa using same
      exact ⟨w, s, s', by simp [markInert]⟩
    | _ => trivial

/-- The second part of a variable is its value. -/
theorem markInertVariable_grammatical {d : Node} (grammatical : d.Grammatical) :
    (match d.children with
      | [b, v] => d.withChildren [b, markInert v]
      | _ => d).Grammatical := by
  split
  next b v pair =>
    obtain ⟨binding, value⟩ := grammatical.of_pair pair
    have takes := grammatical.takes
    rw [pair] at takes
    have asks := grammatical.asks
    rw [pair] at asks
    refine grammatical.withChildren (takes_markInert takes value) (asks_markInert asks)
      (by rw [pair]; rfl) ?_
    simpa using ⟨binding, (markInert_grammatical value).1⟩
  · exact grammatical

theorem markInertStatement_grammatical {n : Node} (grammatical : n.Grammatical) :
    (markInertStatement n).Grammatical := by
  unfold markInertStatement
  extract_lets first inVariables declared
  have firstPart {cs : List Node} {f : Node → Node} (parts : ∀ c ∈ cs, c.Grammatical)
      (each : ∀ c, c.Grammatical → (f c).Grammatical) : ∀ c ∈ first cs f, c.Grammatical := by
    cases cs with
    | nil => nofun
    | cons c cs =>
      obtain ⟨head, tail⟩ := List.forall_mem_cons.mp parts
      exact List.forall_mem_cons.mpr ⟨each c head, tail⟩
  have length {cs : List Node} {f : Node → Node} : (first cs f).length = cs.length := by
    cases cs <;> rfl
  have ofVariables {m : Node} (grammatical : m.Grammatical) : (inVariables m).Grammatical := by
    unfold inVariables
    split
    next form =>
      refine grammatical.withChildren (form ▸ trivial) (form ▸ .of_none rfl trivial) length
        (firstPart grammatical.parts ?_)
      exact fun d => markInertVariable_grammatical
    · exact grammatical
  have declaration {m : Node} (grammatical : m.Grammatical) : (declared m).Grammatical := by
    unfold declared
    split
    · exact (markInert_grammatical grammatical).1
    · exact ofVariables grammatical
  split
  next form =>
    refine grammatical.withChildren (form ▸ trivial) (form ▸ .of_none rfl trivial) length
      (firstPart grammatical.parts fun c part => ?_)
    split
    · exact (markInert_grammatical part).1
    · exact part
  next form =>
    refine grammatical.withChildren (form ▸ trivial) (form ▸ .of_none rfl trivial) length
      (firstPart grammatical.parts fun c part => ?_)
    exact declaration part
  · exact declaration grammatical

theorem statement_spec {single : Bool} : Yields (statement go single) Node.Grammatical := by
  mvcgen [statement]
  all_goals simp_all [Node.grammatical_ite, markInertStatement_grammatical]

end Statements

/-! ## Phrases and programs -/

instance sound_descend (depth : Nat) : (descend depth).Sound := by
  induction depth with
  | zero =>
    have fails (p : Phrase) (good : Node → Prop) : Yields (descend 0 p) good := by
      mvcgen [descend]
    constructor
    all_goals
      intros
      apply fails
  | succ depth ih =>
    constructor
    · exact expression_spec
    · exact fun _ => assignment_spec
    · exact fun _ => binaryExpression_spec
    · exact unaryExpression_spec
    · exact leftHandSide_spec
    · exact newTarget_spec
    · exact fun _ => element_spec
    · exact fun _ => statement_spec
    · exact block_spec
    · exact pattern_spec
    · exact type_spec
    · exact unionType_spec
    · exact typeOperator_spec

theorem program_spec {depth : Nat} : Yields (program depth) Node.Grammatical := by
  mvcgen [program]
  all_goals simp_all [Option.length_toList]

end Read

/-- Whatever is read is grammatical. -/
theorem parse_grammatical {language : Language} {source : String} {p : Parsed}
    (read : parse language source = .ok p) : p.tree.Grammatical := by
  unfold parse at read
  dsimp only at read
  split at read
  · cases read
  next tree s ran =>
    split at read
    · cases read
      exact Read.yields_iff.mp Read.program_spec _ _ _ ran
    · cases read

theorem parse_wellFormed {language : Language} {source : String} {p : Parsed}
    (read : parse language source = .ok p) : p.tree.WellFormed :=
  (parse_grammatical read).wellFormed

/-- The expression of a program in parentheses is a part of it. -/
theorem Node.at?_soleExpression {n e : Node} (sole : n.soleExpression? = some e) :
    n.at? [0, 0, 0] = some e := by
  unfold soleExpression? at sole
  split at sole
  next s statement =>
    split at sole
    next c _ expression =>
      split at sole
      next inner _ parens => simpa [statement, expression, parens] using sole
      · cases sole
    · cases sole
  · cases sole

theorem parseExpression_grammatical {language : Language} {text : String} {e : Node}
    (read : parseExpression language text = some e) : e.Grammatical := by
  obtain ⟨p, parsed, sole, -⟩ := parseExpression_inv read
  exact (parse_grammatical parsed).at? (Node.at?_soleExpression sole)

end Splice
