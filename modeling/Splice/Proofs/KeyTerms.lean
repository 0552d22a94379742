import Splice.Proofs.BlankText
import Splice.Proofs.KeyNames
import Splice.Proofs.Rewriting
import Splice.Proofs.Suspensions

/-!
# Terms as keys

A term on its own is read alike in every language, as long as it has no mark that could open type
arguments: in parentheses it is the whole text, and what is read prints as the term.
-/
namespace Splice

variable {input : Source}

/-! ## Trees without parentheses -/

namespace Node

/-- Parentheses hide nothing that is looked for, and stop no search. -/
theorem anyOutside_bare {hit halt : Form → Bool} (miss : hit .parens = false)
    (go : halt .parens = false) (n : Node) : n.bare.anyOutside hit halt = n.anyOutside hit halt := by
  have list (cs : List Node) (each : ∀ c ∈ cs, c.bare.anyOutside hit halt = c.anyOutside hit halt) :
      anyOutsideList hit halt (cs.map bare) = anyOutsideList hit halt cs := by
    induction cs with
    | nil => rfl
    | cons c cs ih =>
      rw [List.map_cons, anyOutsideList, anyOutsideList, each c List.mem_cons_self,
        ih fun d inside => each d (List.mem_cons_of_mem c inside)]
  have plain (place : Place) (spans : Spans) (cs : List Node) :
      (mk .parens place spans cs).anyOutside hit halt = anyOutsideList hit halt cs := by
    simp [anyOutside, miss, go]
  have unwrapped (place : Place) (cs : List Node) :
      (unwrap place cs).anyOutside hit halt = anyOutsideList hit halt cs := by
    unfold unwrap
    split
    · split
      · simp [anyOutsideList]
      · exact plain ..
    · exact plain ..
  induction n using Node.induction_on with
  | step form place spans cs ih =>
    by_cases parens : form = .parens
    · subst parens
      rw [bare, unwrapped, bareAll_eq, plain, list cs ih]
    · rw [bare_mk place spans cs parens, anyOutside, anyOutside, list cs ih]

theorem suspends_bare (n : Node) : n.bare.suspends = n.suspends := anyOutside_bare rfl rfl n

end Node

/-- A term neither awaits nor yields. -/
theorem Term.suspends_node (e : Term) : e.node.suspends = false := by
  have part (form : Form) (cs : List Node) (plain : form.suspends = false)
      (each : Node.anyOutsideList Form.suspends Form.isFunction cs = false) :
      (expr form cs).anyOutside Form.suspends Form.isFunction = false := by
    simp [expr, Node.anyOutside, plain, each]
  unfold Node.suspends
  induction e using Term.induction_on with
  | name n => rfl
  | call f as callee each =>
    have arguments : Node.anyOutsideList Form.suspends Form.isFunction (nodes as) = false := by
      rw [nodes_eq, Node.anyOutsideList_eq_false]
      intro c inside
      obtain ⟨a, member, rfl⟩ := List.mem_map.mp inside
      exact each a member
    refine part _ _ rfl ?_
    simp [Node.anyOutsideList, callee, Node.absent, Node.group, Node.anyOutside, arguments,
      Form.suspends]
  | member o f object => exact part _ _ rfl (by simp [Node.anyOutsideList, object])
  | unary op x operand => exact part _ _ rfl (by simp [Node.anyOutsideList, operand])
  | binary op l r left right | logical op l r left right =>
    exact part _ _ rfl (by simp [Node.anyOutsideList, left, right])
  | conditional t y n test yes no =>
    exact part _ _ rfl (by simp [Node.anyOutsideList, test, yes, no])

/-! ## Any number of parentheses -/

/-- The tokens in a number of parentheses. -/
def nest : Nat → List Tok → List Tok
  | 0, ts => ts
  | k + 1, ts => enclose true (nest k ts)

theorem opens_nest (k : Nat) (e : Term) : ∃ t us, nest k e.toks = t :: us ∧ t.Opens := by
  induction k with
  | zero => exact e.opens
  | succ k ih => exact opens_enclose ih

theorem weight_le_length_nest (k : Nat) (e : Term) : k + e.weight ≤ (nest k e.toks).length := by
  induction k with
  | zero => simpa [nest] using e.weight_le_length
  | succ k ih =>
    simp only [nest, enclose, if_true, List.length_cons, List.length_append]
    omega

theorem forall_mem_nest {P : Tok → Prop} {ts : List Tok} (opens : P (.mark .lparen))
    (closes : P (.mark .rparen)) (each : ∀ t ∈ ts, P t) (k : Nat) : ∀ t ∈ nest k ts, P t := by
  induction k with
  | zero => exact each
  | succ k ih =>
    intro t inside
    simp only [nest, enclose, if_true, List.mem_cons, List.mem_append, List.not_mem_nil,
      or_false] at inside
    rcases inside with rfl | inside | rfl
    · exact opens
    · exact ih t inside
    · exact closes

section Nested

variable {st : ReadState input} {l : Language} {c : Context} {rest : List Tok} {d : Nat}

/-- No term in parentheses begins an arrow function. -/
theorem Read.parenthesizedArrow_none (k : Nat) (e : Term) (resultType : Bool) (ends : ended rest)
    (ready : st.Ready l c (nest (k + 1) e.toks ++ rest)) :
    ∃ st', parenthesizedArrow (descend (d + 1)) resultType st = .ok none st' ∧
      st'.Ready l c (nest (k + 1) e.toks ++ rest) := by
  have give_up (no : NoArrow (nest (k + 1) e.toks)) :
      ∃ st', parenthesizedArrow (descend (d + 1)) resultType st = .ok none st' ∧
        st'.Ready l c (nest (k + 1) e.toks ++ rest) := by
    obtain ⟨st', guess, ready'⟩ := guessArrow_no ready (no.append rest)
    refine ⟨st', ?_, ready'⟩
    unfold parenthesizedArrow
    rw [bind_ok guess]
    rfl
  cases k with
  | succ k => exact give_up (.parens _)
  | zero =>
    by_cases name : ∃ n, e = .name n
    · obtain ⟨n, rfl⟩ := name
      exact parenthesizedArrow_name n ends ready resultType
    · exact give_up (Term.noArrow_parens fun n same => name ⟨n, same⟩)

/-- What is read inside parentheses is read with the parentheses too. -/
theorem Term.InsideBy.parens {e : Term} {ts : List Tok} {wrapped : Bool}
    (inside : e.InsideBy (Read.descend d) ts wrapped) (begins : ∃ t us, ts = t :: us ∧ t.Opens)
    (noArrow : ∀ {l : Language} {c : Context} {rest : List Tok} {st : ReadState input}
      (resultType : Bool), ended rest → st.Ready l c (enclose true ts ++ rest) →
      ∃ st', Read.parenthesizedArrow (Read.descend (d + 2)) resultType st = .ok none st' ∧
        st'.Ready l c (enclose true ts ++ rest)) :
    e.InsideBy (Read.descend (d + 3)) (enclose true ts) true := by
  intro l c rest st resultType allowed ends ready
  have closed := closes_of_ended ends
  obtain ⟨st₁, none, ready₁⟩ := noArrow resultType ends ready
  have operand : e.OperandBy (Read.descend (d + 1)) (enclose true ts) true :=
    operand_of_chain (chained_parens begins inside) ⟨_, _, rfl, .paren⟩
  have looped : e.LoopedBy (d + 1) .comma (enclose true ts) true :=
    looped_of_operand operand ⟨_, _, rfl, .paren⟩
  obtain ⟨m, st₂, read, reads, ready₂⟩ := looped.finish allowed (follows_of_closes closed)
    (fun bare => by cases bare) (stops_of_closes _ closed) ready₁
  refine ⟨m, st₂, ?_, reads, ready₂⟩
  change Read.assignment (Read.descend (d + 2)) resultType st = _
  unfold Read.assignment
  simp only [Read.token_bind]
  rw [Read.bind_ok (Read.isYield_false ready .paren)]
  simp only [Bool.false_eq_true, if_false]
  rw [Read.bind_ok none]
  simp only
  rw [Read.bind_ok (Read.asyncSoleArrow_none resultType ready₁ .paren)]
  simp only
  rw [Read.bind_ok read, Read.assignmentRest_conditional m resultType ready.inert ready.pure
    (Or.inl (ready₂.kind_closes closed)), Read.conditionalRest_none _ m resultType ready₂ closed]

/-- A term in any number of parentheses is read as itself. -/
theorem Term.inside_nest (e : Term) (k : Nat) (enough : 4 * e.weight + 3 * (k + 1) ≤ d) :
    e.InsideBy (Read.descend d) (nest (k + 1) e.toks) true := by
  obtain ⟨d, rfl⟩ : ∃ m, d = m + 3 := ⟨d - 3, by omega⟩
  induction k generalizing d with
  | zero =>
    exact (e.readable.assigned (by omega)).inside.parens e.opens
      (Read.parenthesizedArrow_none 0 e)
  | succ k ih =>
    obtain ⟨d, rfl⟩ : ∃ m, d = m + 3 := ⟨d - 3, by omega⟩
    exact (ih d (by omega)).parens (opens_nest (k + 1) e) (Read.parenthesizedArrow_none (k + 1) e)

/-- The whole text is a term in parentheses. -/
theorem Read.program_parens (k : Nat) (e : Term) (allowed : c.allowIn = true)
    (enough : 4 * e.weight + 3 * (k + 1) ≤ d) (ready : st.Ready l c (nest (k + 1) e.toks)) :
    ∃ m spans spans' st', program (d + 2) st = .ok (.mk (.program none l.elements) .part spans
        [.mk .expressionStatement .part spans' [m]]) st' ∧ m.Reads e true ∧ st'.Ready l c [] := by
  have nothing : ended [] := by
    intro t first
    cases first
  obtain ⟨m, st₁, read, reads, ready₁⟩ := e.inside_nest k enough true allowed nothing
    (by rwa [List.append_nil])
  have program := program_of_parens (ready.kind_eq rfl) ready.inert read reads.form_parens
    ready₁.kind_nil
  rw [ready₁.language] at program
  exact ⟨m, _, _, st₁, program, reads, ready₁⟩

end Nested

/-! ## Layouts in parentheses -/

/-- A line end separates any two tokens. -/
theorem Tok.apart_newline (t : Tok) (cs : List Char) : t.apart ('\n' :: cs) = true := by
  cases t with
  | word w =>
    have part : NameChar.isPart '\n' = false := by decide
    simp [apart, clash, part]
  | mark p => cases p <;> rfl

/-- One layout may follow another one on a new line. -/
theorem Laid.newline {ts us : List Tok} {cs ds : List Char} (first : Laid ts cs)
    (second : Laid us ds) : Laid (ts ++ us) (cs ++ '\n' :: ds) := by
  induction first with
  | done blank =>
    have line : ['\n'].all isGapChar = true := by decide
    exact (second.gap line).gap blank
  | @token gap cs t ts blank apart _ ih =>
    have behind : t.apart (cs ++ '\n' :: ds) = true := by
      cases cs with
      | nil => exact t.apart_newline ds
      | cons c cs => exact apart
    have next := (ih.tok behind).gap blank
    rwa [← List.append_assoc, ← List.append_assoc, List.append_assoc gap] at next

theorem inParens_laid {ts : List Tok} {text : String} (laid : Laid ts text.toList) :
    Laid (enclose true ts) (inParens text).toList := by
  have nothing : Laid [] [] := .done rfl
  have close : Laid (ts ++ [.mark .rparen]) (text.toList ++ '\n' :: [')']) :=
    laid.newline (nothing.mark .rparen fun c => rfl)
  have chars : (inParens text).toList = '(' :: (text.toList ++ ['\n', ')']) := by
    simp [inParens]
  rw [chars]
  exact close.mark .lparen fun c => rfl

/-! ## Terms on their own -/

section Key

variable {l : Language} {e : Term} {text : String} {k : Nat}
  (laid : Laid (nest k e.toks) text.toList)
  (angles : l.typed = true → ∀ t ∈ e.toks, t.isAngle = false)

include laid angles

theorem parse_inParens :
    ∃ p m spans spans', parse l (inParens text) = .ok p ∧
      p.tree = .mk (.program none l.elements) .part spans [.mk .expressionStatement .part spans' [m]] ∧
      m.Reads e true := by
  have whole : Laid (nest (k + 1) e.toks) (inParens text).toList := inParens_laid laid
  have plain : l.typed = true → ∀ t ∈ nest (k + 1) e.toks, t.isAngle = false :=
    fun typed => forall_mem_nest (P := fun t => t.isAngle = false) rfl rfl (angles typed) (k + 1)
  have short := (weight_le_length_nest (k + 1) e).trans whole.length_le
  obtain ⟨m, spans, spans', st, read, reads, ready⟩ := Read.program_parens
    (d := 16 * ((inParens text).toList.length + 1) + 62) k e rfl (by omega)
    (ReadState.Ready.initial plain whole)
  exact ⟨_, m, spans, spans', parse_of_program read ready.tokenProblems ready.problems ready.defaults
    rfl, rfl, reads⟩

/-- A term is an expression on its own, whatever parentheses are around it. -/
theorem parseExpression_nested : ∃ n, parseExpression l text = some n ∧ n.bare = e.regroup.node := by
  obtain ⟨p, m, spans, spans', read, tree, reads⟩ := parse_inParens laid angles
  obtain ⟨form, place, here, cs⟩ := m
  obtain rfl : form = .parens := reads.form_parens
  have whole : (Node.mk .parens place here cs).bare = e.regroup.node := reads.tree
  have other : e.regroup.node.form ≠ .parens := by cases e.regroup <;> nofun
  obtain ⟨n, rfl, inner⟩ : ∃ n, cs = [n] ∧ n.bare = e.regroup.node := by
    cases cs with
    | nil => exact absurd (congrArg Node.form whole).symm other
    | cons n cs =>
      rcases Node.bare_parens_cases place here n cs with ⟨rfl, value⟩ | form
      · rw [Node.bare_parens place here value] at whole
        exact ⟨n, rfl, whole⟩
      · rw [whole] at form
        exact absurd form other
  have sole : p.tree.soleExpression? = some n := by
    rw [tree]
    rfl
  have calm : n.suspends = false := by
    rw [← n.suspends_bare, inner, Term.suspends_node]
  refine ⟨n, ?_, inner⟩
  rw [parseExpression_of_sole (sole_shown read sole) read sole, calm]
  rfl

end Key

/-- A term is an expression on its own. -/
theorem parseExpression_term {l : Language} {e : Term} {text : String} (laid : Laid e.toks text.toList)
    (angles : l.typed = true → ∀ t ∈ e.toks, t.isAngle = false) :
    ∃ n, parseExpression l text = some n ∧ n.bare = e.regroup.node :=
  parseExpression_nested (k := 0) laid angles

/-- The printed form of a term and its shape, however it is laid out and put in parentheses. -/
theorem normalizeKey_nested {e : Term} {text : String} {k : Nat}
    (laid : Laid (nest k e.toks) text.toList) (angles : ∀ t ∈ e.toks, t.isAngle = false) :
    normalizeKey text = some (String.ofList (e.regroup.text none), e.regroup.node.form.shape) := by
  obtain ⟨n, read, tree⟩ := parseExpression_nested (l := .typedModule) laid fun _ => angles
  rw [normalizeKey, read, Option.map_some, Node.render_term tree, Node.shape,
    Term.form_withoutParens tree]

/-- The printed form of a term and its shape, however it is laid out. -/
theorem normalizeKey_term {e : Term} {text : String} (laid : Laid e.toks text.toList)
    (angles : ∀ t ∈ e.toks, t.isAngle = false) :
    normalizeKey text = some (String.ofList (e.regroup.text none), e.regroup.node.form.shape) :=
  normalizeKey_nested (k := 0) laid angles

/-- A name is a key of its own. -/
theorem normalizeKey_name (n : Name) : normalizeKey n.text = some (n.text, .identifier) := by
  have nothing : Laid [] [] := .done rfl
  have word : Laid [.word n.toWord] n.text.toList := by simpa using nothing.word n.toWord nofun
  have laid : Laid (Term.name n).toks n.text.toList := by rwa [Term.toks]
  rw [normalizeKey_term laid (by simp [Term.toks, Tok.isAngle]), Term.regroup, Term.text,
    String.ofList_toList]
  rfl

end Splice
