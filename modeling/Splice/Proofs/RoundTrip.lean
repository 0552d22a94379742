import Mathlib
import Splice.Proofs.KeyTerms
import Splice.Proofs.Keys
import Splice.Proofs.Substitution
import Splice.Proofs.Visiting

/-!
# Transformed programs

A program of assignments of terms stays one: what is put in is set in parentheses where it has to
be, so that reading the transformed text gives the tree with the replacements in it.
-/
namespace Splice

/-! ## What is put in -/

namespace Node

/-- A tree is the same at every position. -/
theorem bare_respan (s : Span) (n : Node) : (respan s n).bare = n.bare := by
  induction n using Node.induction_on with
  | step form place spans cs ih =>
    have parts : bareAll (respanParts s form.arity cs) = bareAll cs := by
      rw [bareAll_eq, bareAll_eq, map_respanParts s ih]
    cases form <;> simp only [respan, bare, parts]

end Node

/-- The position of what is replaced does not matter. -/
theorem Replacement.bare_build (l : Language) (s s' : Span) (r : Replacement) :
    (r.build l s).map Node.bare = (r.build l s').map Node.bare := by
  cases r with
  | boolean b => rfl
  | string v => rfl
  | number d =>
    simp only [build, Option.map_some, numberNode]
    cases d.isNaN <;> cases d.isInfinite <;> cases d.isNegative <;> rfl
  | expression text =>
    simp only [build, Option.map_map]
    have same (s : Span) : Node.bare ∘ Node.respan s = Node.bare := funext (Node.bare_respan s)
    rw [same, same]

namespace Pass

variable {p : Pass}

/-- What happens to a tree of a term is decided by its text. -/
theorem outcome_term {n : Node} {e : Term} (tree : n.bare = e.node) :
    p.outcome n = if p.table.mayMatch e.node.form.shape then
      (p.table.lookup (String.ofList (e.text none))).elim .noMatch (p.outcomeOf n) else .noMatch := by
  rw [outcome, Node.render_term tree, Node.shape, Term.form_withoutParens tree]
  cases p.table.lookup (String.ofList (e.text none)) <;> rfl

/-- If only terms are put in, the pass does the same to all trees of a term. -/
theorem does_of_terms
    (terms : ∀ text v r span m, p.table.lookup text = some v →
      Replacement.resolve p.environment v = .resolved r → r.build p.language span = some m →
      ∃ new : Term, m.bare = new.node) (e : Term) : ∃ found, p.Does e found := by
  cases shape : p.table.mayMatch e.node.form.shape with
  | false =>
    refine ⟨none, ?_⟩
    intro n tree
    simp only [outcome_term tree, shape, Bool.false_eq_true, if_false]
  | true =>
    cases value : p.table.lookup (String.ofList (e.text none)) with
    | none =>
      refine ⟨none, ?_⟩
      intro n tree
      simp only [outcome_term tree, shape, value, if_true, Option.elim_none]
    | some v =>
      have outcome (n : Node) (tree : n.bare = e.node) : p.outcome n = p.outcomeOf n v := by
        simp only [outcome_term tree, shape, value, if_true, Option.elim_some]
      cases resolved : Replacement.resolve p.environment v with
      | unset name =>
        refine ⟨some e, ?_⟩
        intro n tree
        simp only [outcome n tree, outcomeOf, resolved]
      | resolved r =>
        cases built : r.build p.language ⟨0, 0⟩ with
        | none =>
          refine ⟨some e, ?_⟩
          intro n tree
          have same := r.bare_build p.language n.span ⟨0, 0⟩
          rw [built, Option.map_none, Option.map_eq_none_iff] at same
          simp only [outcome n tree, outcomeOf, resolved, same]
        | some m =>
          obtain ⟨new, text⟩ := terms _ v r _ m value resolved built
          refine ⟨some new, ?_⟩
          intro n tree
          have same := r.bare_build p.language n.span ⟨0, 0⟩
          rw [built, Option.map_some, Option.map_eq_some_iff] at same
          obtain ⟨m', built', bare⟩ := same
          simp only [outcome n tree, outcomeOf, resolved, built']
          exact ⟨new, rfl, bare.trans text⟩

theorem skips_of_lookup {x : Line} (unknown : p.table.lookup (String.ofList x.assignText) = none) :
    p.Skips x := by
  intro n tree
  rw [outcome, Node.render_assign tree, unknown]
  cases p.table.mayMatch n.shape <;> rfl

end Pass

/-! ## Programs -/

/-- A program of assignments is read, rewritten, printed, and read again. -/
theorem transform_lines {t : Table} {env : Environment} {path source : String} {p : Parsed}
    {hit : Term → Option Term} {xs : List Line}
    (plain : (Language.ofPath path).typed = false)
    (read : parse (Language.ofPath path) source = .ok p) (silent : p.comments = [])
    (tree : p.tree.bare = linesNode (Language.ofPath path).elements xs)
    (does : ∀ e, Pass.Does ⟨t, env, Language.ofPath path⟩ e (hit e))
    (skips : ∀ x ∈ xs, Pass.Skips ⟨t, env, Language.ofPath path⟩ x) :
    ∃ out again, transform t env path source false = .ok out ∧
      parse (Language.ofPath path) out.code = .ok again ∧
      again.tree.bare =
        linesNode (Language.ofPath path).elements (xs.map fun x => (x.rewrite hit).regroup) := by
  have walked := Pass.walk_lines does skips tree
  obtain ⟨again, accepted, result, -⟩ := Node.parse_print_lines plain walked
  have printed : transform t env path source false =
      .ok ⟨(Pass.walk ⟨t, env, Language.ofPath path⟩ p.tree).1.print [] false,
        (Pass.walk ⟨t, env, Language.ofPath path⟩ p.tree).2⟩ := by
    rw [transform_of_parse read, silent, Pass.run_eq_walk]
  refine ⟨_, again, printed, accepted, ?_⟩
  rw [result, List.map_map]
  rfl

/-! ## A name as the only key -/

/-- The table of a configuration with a name as its only key. -/
def Table.ofName (key : Name) (value : String) : Table :=
  ofConfig (({} : Config).insert key.text (.text value))

theorem Config.keyFor_name (key : Name) (v : Value) (text : String) :
    (({} : Config).insert key.text v).keyFor text =
      if text = key.text then some (v, .identifier) else none := by
  change [(key.text, v)].findSome? (entryFor text) = _
  simp only [List.findSome?_cons, List.findSome?_nil, entryFor, normalizeKey_name]
  by_cases same : text = key.text
  · simp [same]
  · simp [same, Ne.symm same]

namespace Table

theorem lookup_ofName (key : Name) (value text : String) :
    (ofName key value).lookup text = if text = key.text then some (.text value) else none := by
  rw [ofName, lookup_ofConfig, Config.keyFor_name]
  by_cases same : text = key.text <;> simp [same]

theorem mayMatch_ofName (key : Name) (value : String) : (ofName key value).mayMatch .identifier = true := by
  rw [ofName, mayMatch_ofConfig]
  exact ⟨key.text, .text value, by rw [Config.keyFor_name, if_pos rfl]⟩

end Table

/-- The pass puts the expression in for the name, and does nothing else. -/
theorem Pass.does_ofName {env : Environment} {l : Language} (key : Name) {value : String} {m : Node}
    {new : Term} (expression : Replacement.classify value = .expression value)
    (direct : Environment.reference? value = none) (read : parseExpression l value = some m)
    (term : m.bare = new.node) (e : Term) :
    Pass.Does ⟨.ofName key value, env, l⟩ e (Term.atName key new e) := by
  intro n tree
  have other (unlike : String.ofList (e.text none) ≠ key.text) :
      Pass.outcome ⟨.ofName key value, env, l⟩ n = .noMatch := by
    rw [outcome_term tree, Table.lookup_ofName, if_neg unlike]
    simp
  by_cases same : e = .name key
  · subst same
    have resolved : Replacement.resolve env (.text value) = .resolved (.expression value) := by
      simp only [Replacement.resolve, direct, expression]
    have found : Pass.outcome ⟨.ofName key value, env, l⟩ n = .replaced (m.respan n.span) := by
      rw [outcome_term tree, Table.lookup_ofName, Term.text, String.ofList_toList, if_pos rfl]
      simp only [Term.node, Term.expr, Node.form, Form.shape, Table.mayMatch_ofName, if_true,
        Option.elim_some, outcomeOf, resolved, Replacement.build, read, Option.map_some]
    rw [found]
    exact ⟨new, by simp [Term.atName], (Node.bare_respan _ _).trans term⟩
  · have unlike : String.ofList (e.text none) ≠ key.text := by
      intro spelled
      rw [← String.toList_inj, String.toList_ofList] at spelled
      by_cases name : ∃ k, e = .name k
      · obtain ⟨k, rfl⟩ := name
        exact same (congrArg Term.name (Name.text_inj (String.toList_inj.mp spelled)))
      · exact Term.text_ne_word (fun k isName => name ⟨k, isName⟩) key.toWord spelled
    rw [other unlike]
    cases e with
    | name k => exact if_neg fun equal => same (congrArg Term.name equal)
    | member | call | unary | binary | logical | conditional => rfl

/-- An assignment is no name. -/
theorem Line.assignText_ne (x : Line) (w : Word) : String.ofList x.assignText ≠ w.text := by
  intro same
  obtain ⟨c, cs, text, -, parts⟩ := w.chars_eq
  rw [← String.toList_inj, String.toList_ofList, text] at same
  have space : NameChar.isPart ' ' = true := parts ' ' (by rw [← same]; simp [assignText])
  exact absurd space (by decide)

/-- The transformed assignment is the assignment with the expression in place of the name. Only runs
of one logical operator are grouped anew. -/
theorem transform_substitutes (env : Environment) (path : String) (key : Name)
    {source value : String} {p : Parsed} {m : Node} {x : Line} {new : Term}
    (plain : (Language.ofPath path).typed = false)
    (read : parse (Language.ofPath path) source = .ok p) (silent : p.comments = [])
    (tree : p.tree.bare = linesNode (Language.ofPath path).elements [x])
    (expression : Replacement.classify value = .expression value)
    (direct : Environment.reference? value = none)
    (readValue : parseExpression (Language.ofPath path) value = some m) (term : m.bare = new.node) :
    ∃ out again, transform (.ofName key value) env path source false = .ok out ∧
      parse (Language.ofPath path) out.code = .ok again ∧
      again.tree.bare = linesNode (Language.ofPath path).elements
        [{ x with value := (Term.substitute key new x.value).regroup }] ∧
      ((Term.substitute key new x.value).leans = true →
        again.tree.bare = linesNode (Language.ofPath path).elements
          [{ x with value := Term.substitute key new x.value }]) := by
  have skips : ∀ y ∈ [x], Pass.Skips ⟨.ofName key value, env, Language.ofPath path⟩ y := by
    intro y _
    refine Pass.skips_of_lookup ?_
    rw [Table.lookup_ofName, if_neg (y.assignText_ne key.toWord)]
  obtain ⟨out, again, printed, accepted, result⟩ := transform_lines plain read silent tree
    (Pass.does_ofName key expression direct readValue term) skips
  have substituted : again.tree.bare = linesNode (Language.ofPath path).elements
      [{ x with value := (Term.substitute key new x.value).regroup }] := by
    rw [result, ← Term.rewrite_atName]
    rfl
  refine ⟨out, again, printed, accepted, substituted, ?_⟩
  intro leaning
  rw [substituted, Term.regroup_of_leans _ leaning]

/-- The name is an object, an argument and the operand of a sign. -/
theorem transform_substitutes_power :
    let key : Name := ⟨⟨"K", rfl⟩, rfl, rfl⟩
    let either : Term := .logical .or (.name ⟨⟨"b", rfl⟩, rfl, rfl⟩) (.name ⟨⟨"c", rfl⟩, rfl, rfl⟩)
    ∃ out again, transform (.ofName key "b || c") {} "a.js" "x = K.m(K) ** -K;" false = .ok out ∧
      parse .plain out.code = .ok again ∧
      again.tree.bare = linesNode false [⟨⟨⟨"x", rfl⟩, rfl, rfl⟩, .binary .pow
        (.call (.member either ⟨"m", rfl⟩) [either]) (.unary .minus either), rfl⟩] := by
  intro key either
  have read : ∃ p m, parse .plain "x = K.m(K) ** -K;" = .ok p ∧ p.comments = [] ∧
      p.tree.bare = linesNode false [⟨⟨⟨"x", rfl⟩, rfl, rfl⟩, .binary .pow
        (.call (.member (.name key) ⟨"m", rfl⟩) [.name key]) (.unary .minus (.name key)), rfl⟩] ∧
      parseExpression .plain "b || c" = some m ∧ m.bare = either.node := ⟨_, _, rfl, rfl, rfl, rfl, rfl⟩
  obtain ⟨p, m, source, silent, tree, value, term⟩ := read
  obtain ⟨out, again, printed, accepted, -, same⟩ := transform_substitutes {} "a.js" key rfl
    source silent tree (by decide +kernel) (by decide +kernel) value term
  exact ⟨out, again, printed, accepted, same rfl⟩

/-- A disjunction that is put in on the right of another one is read as one run with it. -/
theorem transform_regroups_disjunction :
    let key : Name := ⟨⟨"K", rfl⟩, rfl, rfl⟩
    let a : Term := .name ⟨⟨"a", rfl⟩, rfl, rfl⟩
    let b : Term := .name ⟨⟨"b", rfl⟩, rfl, rfl⟩
    let c : Term := .name ⟨⟨"c", rfl⟩, rfl, rfl⟩
    let line : Line := ⟨⟨⟨"x", rfl⟩, rfl, rfl⟩, .logical .or a (.name key), rfl⟩
    ∃ p m out again, parse .plain "x = a || K;" = .ok p ∧ p.tree.bare = linesNode false [line] ∧
      parseExpression .plain "b || c" = some m ∧ m.bare = (Term.logical .or b c).node ∧
      transform (.ofName key "b || c") {} "a.js" "x = a || K;" false = .ok out ∧
      out.code = "x = a || b || c;\n" ∧ parse .plain out.code = .ok again ∧
      again.tree.bare ≠
        linesNode false [{ line with value := Term.substitute key (.logical .or b c) line.value }] := by
  intro key a b c line
  have run : (transform (.ofName key "b || c") {} "a.js" "x = a || K;" false).toOption =
      some ⟨"x = a || b || c;\n", { replaced := 1 }⟩ := by decide +kernel
  have read : ∃ again, parse .plain "x = a || b || c;\n" = .ok again ∧
      again.tree.bare = linesNode false [{ line with value := .logical .or (.logical .or a b) c }] :=
    ⟨_, rfl, rfl⟩
  obtain ⟨again, accepted, tree⟩ := read
  refine ⟨_, _, _, again, rfl, rfl, rfl, rfl, ok_of_toOption run, rfl, accepted, ?_⟩
  rw [tree]
  intro same
  -- The left operand is a disjunction in one tree and a name in the other.
  have left := congrArg (fun n => (n.at? [0, 0, 1, 0]).map Node.shape) same
  exact absurd left (by decide +kernel)

/-! ## Programs that stay programs -/

/-- A program of assignments into which only terms are put in stays a program. -/
theorem transform_accepted (t : Table) (env : Environment) (path : String) {source : String}
    {p : Parsed} {xs : List Line}
    (plain : (Language.ofPath path).typed = false)
    (read : parse (Language.ofPath path) source = .ok p) (silent : p.comments = [])
    (tree : p.tree.bare = linesNode (Language.ofPath path).elements xs)
    (keys : ∀ x ∈ xs, t.lookup (String.ofList x.assignText) = none)
    (terms : ∀ text v r span m, t.lookup text = some v → Replacement.resolve env v = .resolved r →
      r.build (Language.ofPath path) span = some m → ∃ new : Term, m.bare = new.node) :
    ∃ out again, transform t env path source false = .ok out ∧
      parse (Language.ofPath path) out.code = .ok again := by
  have each := Pass.does_of_terms (p := ⟨t, env, Language.ofPath path⟩) terms
  obtain ⟨hit, does⟩ := Classical.axiomOfChoice each
  obtain ⟨out, again, printed, accepted, -⟩ := transform_lines plain read silent tree does
    fun x inside => Pass.skips_of_lookup (keys x inside)
  exact ⟨out, again, printed, accepted⟩

/-- Terms are put in for a name in two assignments. -/
theorem transform_accepted_assignments :
    let key : Name := ⟨⟨"K", rfl⟩, rfl, rfl⟩
    ∃ out again, transform (.ofName key "b || c") {} "a.js" "x = K.m; y = !K" false = .ok out ∧
      parse .plain out.code = .ok again := by
  intro key
  have read : ∃ p m, parse .plain "x = K.m; y = !K" = .ok p ∧ p.comments = [] ∧
      p.tree.bare = linesNode false [
        ⟨⟨⟨"x", rfl⟩, rfl, rfl⟩, .member (.name key) ⟨"m", rfl⟩, rfl⟩,
        ⟨⟨⟨"y", rfl⟩, rfl, rfl⟩, .unary .not (.name key), rfl⟩] ∧
      parseExpression .plain "b || c" = some m ∧
      m.bare = (Term.logical .or (.name ⟨⟨"b", rfl⟩, rfl, rfl⟩) (.name ⟨⟨"c", rfl⟩, rfl, rfl⟩)).node :=
    ⟨_, _, rfl, rfl, rfl, rfl, rfl⟩
  obtain ⟨p, m, source, silent, tree, value, term⟩ := read
  refine transform_accepted (.ofName key "b || c") {} "a.js" rfl source silent tree ?_ ?_
  · intro x _
    rw [Table.lookup_ofName, if_neg (x.assignText_ne key.toWord)]
  · intro text v r span n found resolved built
    rw [Table.lookup_ofName] at found
    obtain ⟨rfl, rfl⟩ : text = key.text ∧ v = .text "b || c" := by
      by_cases same : text = key.text
      · exact ⟨same, by simpa [same, eq_comm] using found⟩
      · simp [same] at found
    have expression : Replacement.resolve {} (.text "b || c") = .resolved (.expression "b || c") := by
      decide +kernel
    rw [expression, Resolution.resolved.injEq] at resolved
    subst resolved
    have read : parseExpression (Language.ofPath "a.js") "b || c" = some m := value
    rw [Replacement.build, read, Option.map_some, Option.some.injEq] at built
    exact ⟨_, by rw [← built, Node.bare_respan, term]⟩

/-- The key of a property is no place for every expression. -/
theorem transform_breaks_property :
    ∃ p out problems, parse .plain "x = \x7b \"a\": 1 \x7d;" = .ok p ∧
      transform (.ofConfig ⟨{ toList := [("\"a\"", .text "b.c")] }⟩) {} "a.js" "x = \x7b \"a\": 1 \x7d;" false =
        .ok out ∧
      out.code = "x = \x7b b.c: 1 \x7d;\n" ∧ parse .plain out.code = .error problems := by
  have read : (parse .plain "x = \x7b \"a\": 1 \x7d;").toOption.any (fun _ => true) = true := by
    decide +kernel
  have printed : (transform (.ofConfig ⟨{ toList := [("\"a\"", .text "b.c")] }⟩) {} "a.js"
      "x = \x7b \"a\": 1 \x7d;" false).toOption.any
        (· == ⟨"x = \x7b b.c: 1 \x7d;\n", { replaced := 1 }⟩) = true := by decide +kernel
  have refused : (parse .plain "x = \x7b b.c: 1 \x7d;\n").toOption.isNone = true := by
    decide +kernel
  obtain ⟨p, read, -⟩ := exists_ok_of_any read
  obtain ⟨out, printed, same⟩ := exists_ok_of_any printed
  obtain rfl := eq_of_beq same
  cases again : parse .plain "x = \x7b b.c: 1 \x7d;\n" with
  | ok q =>
    rw [again] at refused
    cases refused
  | error problems => exact ⟨p, _, problems, read, printed, rfl, again⟩

end Splice
