import Splice.Define.Pass
import Splice.Proofs.Lines

/-!
# The pass over terms

What the pass does to a tree of a term depends on the term only: at an outermost part that it takes
for a key it puts in the replacement, or leaves the part alone, and everything else stays.
-/
namespace Splice

/-! ## Rewriting terms -/

namespace Term

mutual

/-- Puts other terms in for the outermost parts that `hit` gives one for. -/
def rewrite (hit : Term → Option Term) : Term → Term
  | name n => (hit (name n)).getD (name n)
  | member o f => (hit (member o f)).getD (member (rewrite hit o) f)
  | call f as => (hit (call f as)).getD (call (rewrite hit f) (rewriteAll hit as))
  | unary op x => (hit (unary op x)).getD (unary op (rewrite hit x))
  | binary op l r => (hit (binary op l r)).getD (binary op (rewrite hit l) (rewrite hit r))
  | logical op l r => (hit (logical op l r)).getD (logical op (rewrite hit l) (rewrite hit r))
  | conditional t y n =>
    (hit (conditional t y n)).getD (conditional (rewrite hit t) (rewrite hit y) (rewrite hit n))

def rewriteAll (hit : Term → Option Term) : List Term → List Term
  | [] => []
  | a :: as => rewrite hit a :: rewriteAll hit as

end

theorem rewriteAll_eq (hit : Term → Option Term) (as : List Term) :
    rewriteAll hit as = as.map (rewrite hit) := by
  induction as with
  | nil => rfl
  | cons a as ih => rw [rewriteAll, List.map_cons, ih]

theorem rewrite_of_hit {hit : Term → Option Term} {e new : Term} (found : hit e = some new) :
    e.rewrite hit = new := by
  cases e <;> simp only [rewrite, found, Option.getD_some]

/-- A name is given another term, and nothing else is. -/
def atName (key : Name) (new : Term) : Term → Option Term
  | name n => if n = key then some new else none
  | _ => none

theorem substituteAll_eq (key : Name) (new : Term) (as : List Term) :
    substituteAll key new as = as.map (substitute key new) := by
  induction as with
  | nil => rfl
  | cons a as ih => rw [substituteAll, List.map_cons, ih]

theorem rewrite_atName (key : Name) (new e : Term) :
    e.rewrite (atName key new) = substitute key new e := by
  induction e using Term.induction_on with
  | name n =>
    by_cases same : n = key
    · simp [rewrite, atName, substitute, same]
    · simp [rewrite, atName, substitute, same]
  | member o f ih => simp only [rewrite, atName, substitute, ih, Option.getD_none]
  | call f as ih each =>
    have arguments : as.map (rewrite (atName key new)) = as.map (substitute key new) :=
      List.map_congr_left each
    simp only [rewrite, atName, substitute, ih, Option.getD_none, rewriteAll_eq, substituteAll_eq,
      arguments]
  | unary op x ih => simp only [rewrite, atName, substitute, ih, Option.getD_none]
  | binary op l r ihl ihr => simp only [rewrite, atName, substitute, ihl, ihr, Option.getD_none]
  | logical op l r ihl ihr => simp only [rewrite, atName, substitute, ihl, ihr, Option.getD_none]
  | conditional t y n iht ihy ihn =>
    simp only [rewrite, atName, substitute, iht, ihy, ihn, Option.getD_none]

end Term

/-! ## Rendering -/

namespace Node

theorem calm_render : ({ marks := false } : Out).Calm := by constructor <;> simp

/-- A tree of a term renders as the text of the term. -/
theorem render_term {n : Node} {e : Term} (tree : n.bare = e.node) :
    n.render = String.ofList (e.text none) := by
  have opens : ({ marks := false } : Out).Opens none := by
    refine ⟨?_, Or.inl rfl⟩
    intro c first
    cases first
  have written : Emit.Writes n.piece.plain { marks := false } (e.text none) :=
    (e.prints n tree).loose (by decide) rfl rfl calm_render opens
  change String.ofList (n.piece.plain { marks := false }).2.text.reverse = _
  rw [written.2]
  simp

end Node

/-- The assignment of a line without its semicolon. -/
def Line.assignText (x : Line) : List Char :=
  x.target.text.toList ++ ' ' :: '=' :: ' ' :: x.value.text none

def Line.assignNode (x : Line) : Node :=
  Term.expr (.assign .plain) [.mk (.identifier x.target.text) .part ⟨⟨0, 0⟩, []⟩ [], x.value.node]

theorem Node.render_assign {n : Node} {x : Line} (tree : n.bare = x.assignNode) :
    n.render = String.ofList x.assignText := by
  obtain ⟨spans, ds, inner, parts⟩ := of_bare tree (by simp)
  obtain ⟨target, v, rfl, name, term⟩ := two_of_bare parts
  have apart : ∀ c ∈ ({ marks := false } : Out).text.head?, NameChar.isPart c = false := by
    intro c first
    cases first
  have written := Print.assign_writes name term calm_render apart
  have same : n.piece.plain = Print.assign .plain target.piece v.piece {} := by
    change n.piece.emit {} = _
    rw [n.emit_withoutParens, inner]
    rfl
  change String.ofList (n.piece.plain { marks := false }).2.text.reverse = _
  rw [same, written.2]
  simp [Line.assignText]

/-- Only a name is spelled like a word. -/
theorem Term.text_ne_word {e : Term} (other : ∀ n, e ≠ name n) (w : Word) : e.text none ≠ w.text.toList := by
  obtain ⟨c, cs, text, -, parts⟩ := w.chars_eq
  rw [text]
  have absent : ∀ d, NameChar.isPart d = false → d ∉ c :: cs := by
    intro d no inside
    rw [parts d inside] at no
    cases no
  have dot := absent '.' (by decide)
  have paren := absent '(' (by decide)
  have space := absent ' ' (by decide)
  intro same
  cases e with
  | name n => exact other n rfl
  | member o f =>
    refine dot ?_
    rw [← same]
    simp [Term.text]
  | call f as =>
    refine paren ?_
    rw [← same]
    simp [Term.text]
  | binary op l r =>
    refine space ?_
    rw [← same]
    simp [Term.text]
  | logical op l r =>
    refine space ?_
    rw [← same]
    simp [Term.text]
  | conditional t y n =>
    refine space ?_
    rw [← same]
    simp [Term.text]
  | unary op x =>
    have plus := absent '+' (by decide)
    have minus := absent '-' (by decide)
    have bang := absent '!' (by decide)
    have tilde := absent '~' (by decide)
    cases op with
    | plus => exact plus (by rw [← same]; simp [Term.text, UnaryOp.isWord, UnaryOp.text])
    | minus => exact minus (by rw [← same]; simp [Term.text, UnaryOp.isWord, UnaryOp.text])
    | not => exact bang (by rw [← same]; simp [Term.text, UnaryOp.isWord, UnaryOp.text])
    | complement => exact tilde (by rw [← same]; simp [Term.text, UnaryOp.isWord, UnaryOp.text])
    | typeof | void | delete =>
      exact space (by rw [← same]; simp [Term.text, UnaryOp.isWord, UnaryOp.text])


/-! ## Walking over trees of terms -/

/-- What holds of a tree and what it is the tree of holds of lists of them. -/
theorem map_eq_of_each {α : Type} {as : List α} {tree new : α → Node} {f : Node → Node}
    (each : ∀ a ∈ as, ∀ n : Node, n.bare = tree a → f n = new a) {ns : List Node}
    (same : ns.map Node.bare = as.map tree) : ns.map f = as.map new := by
  induction as generalizing ns with
  | nil =>
    obtain rfl := List.map_eq_nil_iff.mp same
    rfl
  | cons a as ih =>
    obtain ⟨n, ns, rfl, first, rest⟩ := List.map_eq_cons_iff.mp same
    rw [List.map_cons, List.map_cons, each a (by simp) n first,
      ih (fun b inside => each b (by simp [inside])) rest]

namespace Pass

variable {p : Pass} {hit : Term → Option Term}

/-- What the pass does to an expression that is a tree of the term: it is no key, or another term is
put in, or the key is left as it is. -/
def Does (p : Pass) (e : Term) (found : Option Term) : Prop :=
  ∀ n : Node, n.bare = e.node → match p.outcome n with
    | .noMatch => found = none
    | .replaced m => ∃ new, found = some new ∧ m.bare = new.node
    | .unresolved => found = some e
    | .rejected => found = some e

/-- A node that is no key is rebuilt from its children. -/
theorem walk_noMatch {form : Form} {place : Place} {spans : Spans} {cs : List Node}
    (none : p.outcomeAt (.mk form place spans cs) = .noMatch) :
    (p.walk (.mk form place spans cs)).1 =
      .mk (p.afterParts form cs) place spans (cs.map fun c => (p.walk c).1) := by
  have children : ∀ cs : List Node, (p.walkAll cs).1 = cs.map fun c => (p.walk c).1 := by
    intro cs
    induction cs with
    | nil => rfl
    | cons c cs ih => rw [walkAll, List.map_cons, ← ih]
  rw [walk, none, ← children]

theorem walk_kept {n : Node} (kept : p.outcomeAt n = .unresolved ∨ p.outcomeAt n = .rejected) :
    (p.walk n).1 = n := by
  obtain ⟨form, place, spans, cs⟩ := n
  rcases kept with kept | kept <;> rw [walk, kept]

theorem walk_replaced {n m : Node} (new : p.outcomeAt n = .replaced m) : (p.walk n).1 = m := by
  obtain ⟨form, place, spans, cs⟩ := n
  rw [walk, new]

/-- A mere part is no key. -/
theorem walk_part (form : Form) (spans : Spans) (cs : List Node)
    (other : p.afterParts form cs = form) :
    (p.walk (.mk form .part spans cs)).1 = .mk form .part spans (cs.map fun c => (p.walk c).1) := by
  rw [walk_noMatch rfl, other]

/-- Where the pass does something at the root of a tree, it puts in what `hit` says. -/
theorem walk_match {e : Term} (does : p.Does e (hit e)) {n : Node} (tree : n.bare = e.node)
    (isMatch : p.outcomeAt n ≠ .noMatch) : (p.walk n).1.bare = (e.rewrite hit).node := by
  have value : p.outcomeAt n = p.outcome n := by
    unfold outcomeAt at isMatch ⊢
    cases place : n.place with
    | value => rfl
    | part => simp [place] at isMatch
  have found := does n tree
  rw [← value] at found
  cases result : p.outcomeAt n with
  | noMatch => exact absurd result isMatch
  | replaced m =>
    rw [result] at found
    obtain ⟨new, here, same⟩ := found
    rw [walk_replaced result, same, Term.rewrite_of_hit here]
  | unresolved =>
    rw [result] at found
    rw [walk_kept (Or.inl result), tree, Term.rewrite_of_hit found]
  | rejected =>
    rw [result] at found
    rw [walk_kept (Or.inr result), tree, Term.rewrite_of_hit found]

theorem afterParts_term (e : Term) (cs : List Node) : p.afterParts e.node.form cs = e.node.form := by
  cases e <;> rfl

/-- Whether in parentheses or not, a tree of a term becomes a tree of the rewritten term, if the
children do. -/
theorem walk_bare {e : Term} (does : p.Does e (hit e))
    (children : hit e = none → ∀ ds : List Node, ds.map Node.bare = e.node.children →
      Term.expr e.node.form (ds.map fun c => (p.walk c).1.bare) = (e.rewrite hit).node)
    (n : Node) (tree : n.bare = e.node) : (p.walk n).1.bare = (e.rewrite hit).node := by
  obtain ⟨form, cs, node, other⟩ := e.node_eq
  induction n using Node.parens_induct with
  | plain form' place spans ds plain =>
    by_cases isMatch : p.outcomeAt (.mk form' place spans ds) = .noMatch
    · obtain ⟨_, _, inner, parts⟩ := Node.of_bare (tree.trans node) other
      rw [Node.withoutParens_mk place spans plain] at inner
      obtain ⟨rfl, rfl, rfl, rfl⟩ := Node.mk.inj inner
      have same : e.node.form = form' := by
        rw [node]
        rfl
      rw [← same] at tree isMatch ⊢
      have none : hit e = none := by
        have found := does _ tree
        have value : p.outcome (.mk e.node.form .value spans ds) = .noMatch := isMatch
        rw [value] at found
        exact found
      rw [walk_noMatch isMatch, afterParts_term, Node.bare_mk _ _ _ (by rw [same]; exact other),
        List.map_map]
      refine children none ds ?_
      rw [parts, node]
      rfl
    · exact walk_match does tree isMatch
  | parens place spans c cs ih =>
    by_cases isMatch : p.outcomeAt (.mk .parens place spans (c :: cs)) = .noMatch
    · rcases Node.bare_parens_cases place spans c cs with ⟨rfl, value⟩ | form'
      · rw [Node.bare_parens place spans value] at tree
        have inside := ih tree
        rw [walk_noMatch isMatch]
        change (Node.mk .parens place spans [(p.walk c).1]).bare = _
        rw [Node.bare_parens place spans (by rw [inside, Term.place_node]), inside]
      · rw [tree, node] at form'
        exact absurd form' other
    · exact walk_match does tree isMatch

/-- The pass rewrites terms. -/
theorem walk_term (does : ∀ e, p.Does e (hit e)) (e : Term) :
    ∀ n : Node, n.bare = e.node → (p.walk n).1.bare = (e.rewrite hit).node := by
  induction e using Term.induction_on with
  | name n =>
    refine walk_bare (does _) ?_
    intro none ds parts
    obtain rfl := List.map_eq_nil_iff.mp parts
    rw [Term.rewrite, none]
    rfl
  | member o f ih =>
    refine walk_bare (does _) ?_
    intro none ds parts
    obtain ⟨a, rfl, object⟩ := List.map_eq_singleton_iff.mp parts
    rw [Term.rewrite, none, List.map_singleton, ih a object]
    rfl
  | call f as ih each =>
    refine walk_bare (does _) ?_
    intro none ds parts
    obtain ⟨a, b, g, rfl, callee, types, arguments⟩ := Node.three_of_bare parts
    obtain ⟨here, _, rfl, untyped⟩ := Node.part_of_bare types (by simp)
    obtain ⟨there, ns, rfl, same⟩ := Node.part_of_bare arguments (by simp)
    obtain rfl := List.map_eq_nil_iff.mp untyped
    rw [Term.nodes_eq] at same
    have absent : (p.walk (.mk .absent .part here [])).1.bare = .absent := by
      rw [walk_part _ _ _ rfl]
      rfl
    have group : (p.walk (.mk .group .part there ns)).1.bare =
        .group (as.map fun a => (a.rewrite hit).node) := by
      rw [walk_part _ _ _ rfl, Node.bare_mk _ _ _ (by simp), List.map_map]
      exact congrArg Node.group (map_eq_of_each each same)
    rw [Term.rewrite, none, Term.rewriteAll_eq, List.map_cons, List.map_cons, List.map_singleton,
      ih a callee, absent, group]
    simp only [Option.getD_none, Term.node, Term.nodes_eq, List.map_map]
    rfl
  | unary op x ih =>
    refine walk_bare (does _) ?_
    intro none ds parts
    obtain ⟨a, rfl, operand⟩ := List.map_eq_singleton_iff.mp parts
    rw [Term.rewrite, none, List.map_singleton, ih a operand]
    rfl
  | binary op l r ihl ihr =>
    refine walk_bare (does _) ?_
    intro none ds parts
    obtain ⟨a, b, rfl, left, right⟩ := Node.two_of_bare parts
    rw [Term.rewrite, none, List.map_cons, List.map_singleton, ihl a left, ihr b right]
    rfl
  | logical op l r ihl ihr =>
    refine walk_bare (does _) ?_
    intro none ds parts
    obtain ⟨a, b, rfl, left, right⟩ := Node.two_of_bare parts
    rw [Term.rewrite, none, List.map_cons, List.map_singleton, ihl a left, ihr b right]
    rfl
  | conditional t y n iht ihy ihn =>
    refine walk_bare (does _) ?_
    intro none ds parts
    obtain ⟨a, b, c, rfl, test, yes, no⟩ := Node.three_of_bare parts
    rw [Term.rewrite, none, List.map_cons, List.map_cons, List.map_singleton, iht a test, ihy b yes,
      ihn c no]
    rfl

end Pass

/-! ## Walking over lines -/

/-- The line with its value rewritten. -/
def Line.rewrite (hit : Term → Option Term) (x : Line) : Line :=
  { x with value := x.value.rewrite hit }

namespace Pass

variable {p : Pass} {hit : Term → Option Term}

/-- No tree of the assignment is a key. -/
def Skips (p : Pass) (x : Line) : Prop := ∀ n : Node, n.bare = x.assignNode → p.outcome n = .noMatch

theorem walk_assign (does : ∀ e, p.Does e (hit e)) {x : Line} (skips : p.Skips x) (n : Node)
    (tree : n.bare = x.assignNode) : (p.walk n).1.bare = (x.rewrite hit).assignNode := by
  have silent : ∀ m : Node, m.bare = x.assignNode → p.outcomeAt m = .noMatch := by
    intro m same
    unfold outcomeAt
    cases m.place with
    | value => exact skips m same
    | part => rfl
  induction n using Node.parens_induct with
  | plain form place spans ds plain =>
    have none := silent _ tree
    obtain ⟨_, _, inner, parts⟩ := Node.of_bare tree (by simp)
    rw [Node.withoutParens_mk place spans plain] at inner
    obtain ⟨rfl, rfl, rfl, rfl⟩ := Node.mk.inj inner
    obtain ⟨target, v, rfl, name, term⟩ := Node.two_of_bare parts
    obtain ⟨here, cs, rfl, leaf⟩ := Node.part_of_bare name (by simp)
    obtain rfl := List.map_eq_nil_iff.mp leaf
    rw [walk_noMatch none, List.map_cons, List.map_singleton, walk_part _ _ _ rfl]
    change (Node.mk (.assign .plain) .value spans _).bare = _
    rw [Node.bare_mk _ _ _ (by simp), List.map_cons, List.map_singleton,
      walk_term does x.value v term]
    rfl
  | parens place spans c cs ih =>
    have none := silent _ tree
    rcases Node.bare_parens_cases place spans c cs with ⟨rfl, value⟩ | form
    · rw [Node.bare_parens place spans value] at tree
      have inside := ih tree
      rw [walk_noMatch none]
      change (Node.mk .parens place spans [(p.walk c).1]).bare = _
      rw [Node.bare_parens place spans (by rw [inside]; rfl), inside]
    · rw [tree] at form
      cases form

theorem walk_line (does : ∀ e, p.Does e (hit e)) {x : Line} (skips : p.Skips x) {n : Node}
    (tree : n.bare = x.node) : (p.walk n).1.bare = (x.rewrite hit).node := by
  obtain ⟨spans, ds, rfl, parts⟩ := Node.part_of_bare tree (by simp)
  obtain ⟨a, rfl, value⟩ := List.map_eq_singleton_iff.mp parts
  rw [walk_part _ _ _ rfl, Node.bare_mk _ _ _ (by simp), List.map_singleton, List.map_singleton,
    walk_assign does skips a value]
  rfl

/-- The pass rewrites the lines of a program. -/
theorem walk_lines (does : ∀ e, p.Does e (hit e)) {elements : Bool} {xs : List Line}
    (skips : ∀ x ∈ xs, p.Skips x) {n : Node} (tree : n.bare = linesNode elements xs) :
    (p.walk n).1.bare = linesNode elements (xs.map (Line.rewrite hit)) := by
  obtain ⟨spans, ns, rfl, parts⟩ := Node.part_of_bare tree (by simp)
  rw [walk_part _ _ _ rfl, Node.bare_mk _ _ _ (by simp), List.map_map, linesNode, List.map_map]
  have each : ns.map (Node.bare ∘ fun c => (p.walk c).1) = xs.map (Line.node ∘ Line.rewrite hit) :=
    map_eq_of_each (fun x inside n same => walk_line does (skips x inside) same) parts
  rw [each]

end Pass

end Splice
