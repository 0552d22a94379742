import Splice.Proofs.Constants
import Splice.Proofs.Grammar.Program
import Splice.Proofs.Keys
import Splice.Proofs.Replacements
import Splice.Proofs.Visiting

/-!
# The spans of what is put in

An expression that is put in comes from a text of its own, whose positions mean nothing in the program.
So all its nodes, and all pieces of them, get the span of the node that they replace, and are otherwise
as they were read: what is read has no parts and no pieces but those that the walk over a construct of
its kind reaches. A program that has been walked over has no spans but its own, which is what its
comments are placed by.
-/
namespace Splice

/-- All stretches that a node remembers. -/
def Spans.toList (spans : Spans) : List Span := spans.own :: spans.inner

namespace Node

/-- Every node of the tree has the span, and so has every piece of one. -/
def LiesAt (n : Node) (s : Span) : Prop :=
  ∀ q m, n.at? q = some m → ∀ t ∈ m.spans.toList, t = s

/-- Some node of the tree, or a piece of one, has the span. -/
def HasSpan (n : Node) (s : Span) : Prop := ∃ q m, n.at? q = some m ∧ s ∈ m.spans.toList

/-- The trees have nodes with as many pieces at the same positions, which differ in their spans at
most. -/
def Alike (a b : Node) : Prop :=
  ∀ q, (a.at? q).map (fun n => (n.form, n.place, n.spans.inner.length)) =
    (b.at? q).map fun n => (n.form, n.place, n.spans.inner.length)

variable {form : Form} {place : Place} {spans : Spans} {s : Span} {cs : List Node} {n a b : Node}

/-! ## Parts -/

theorem liesAt_mk : (mk form place spans cs).LiesAt s ↔
    (∀ t ∈ spans.toList, t = s) ∧ ∀ c ∈ cs, c.LiesAt s :=
  forall_at?_mk

theorem hasSpan_root : n.HasSpan n.span := ⟨[], n, rfl, List.mem_cons_self⟩

theorem hasSpan_mk : (mk form place spans cs).HasSpan s ↔
    s ∈ spans.toList ∨ ∃ c ∈ cs, c.HasSpan s :=
  exists_at?_mk

/-- Of a tree whose nodes all have one span, no other span is left. -/
theorem LiesAt.eq (all : n.LiesAt s) {other : Span} (some : n.HasSpan other) : other = s := by
  obtain ⟨q, m, found, inside⟩ := some
  exact all q m found other inside

/-! ## Giving all nodes one span -/

theorem Grammatical.liesAt_respan (grammatical : n.Grammatical) (s : Span) :
    (n.respan s).LiesAt s := by
  intro q m found t inside
  rw [grammatical.at?_respan] at found
  obtain ⟨m, here, rfl⟩ := Option.map_eq_some_iff.mp found
  rw [(grammatical.at? here).spans_respan, Spans.toList, List.mem_cons] at inside
  exact inside.elim id List.eq_of_mem_replicate

/-- Pieces are moved, but none is added or lost. -/
theorem length_inner_respan (s : Span) (n : Node) :
    (n.respan s).spans.inner.length = n.spans.inner.length := by
  rw [spans_respan, Spans.moveTo, List.length_append, List.length_map, ← List.length_append,
    List.take_append_drop]

theorem alike_respan (s : Span) (n : Node) : (n.respan s).Alike n := by
  intro q
  obtain ⟨move, moves, found⟩ := at?_respan s n q
  rw [found, Option.map_map]
  congr 1
  funext m
  rcases moves with rfl | rfl
  · simp only [Function.comp_apply, form_respan, place_respan, length_inner_respan]
  · rfl

theorem ext (form : a.form = b.form) (place : a.place = b.place) (spans : a.spans = b.spans)
    (children : a.children = b.children) : a = b := by
  cases a
  cases b
  cases form
  cases place
  cases spans
  cases children
  rfl

/-- Alike trees have alike parts. -/
theorem Alike.getElem?_children (alike : a.Alike b) (i : Nat) :
    (a.children[i]? = none ∧ b.children[i]? = none) ∨
      ∃ c d, a.children[i]? = some c ∧ b.children[i]? = some d ∧ c.Alike d := by
  have below (q : Position) := alike (i :: q)
  simp only [at?_cons] at below
  cases left : a.children[i]? with
  | none =>
    cases right : b.children[i]? with
    | none => exact .inl ⟨rfl, rfl⟩
    | some d => simpa [left, right] using below []
  | some c =>
    cases right : b.children[i]? with
    | none => simpa [left, right] using below []
    | some d => exact .inr ⟨c, d, rfl, rfl, fun q => by simpa [left, right] using below q⟩

/-- Trees that differ in their spans at most become the same tree. -/
theorem Alike.respan_eq (alike : a.Alike b) (left : a.Grammatical) (right : b.Grammatical)
    (s : Span) : a.respan s = b.respan s := by
  induction a using Node.induction_on generalizing b with
  | step form place spans cs ih =>
    have root := Option.some.inj (alike [])
    simp only [Prod.mk.injEq] at root
    obtain ⟨form', place', pieces⟩ := root
    have parts : cs.map (respan s) = b.children.map (respan s) := by
      refine List.ext_getElem? fun i => ?_
      rw [List.getElem?_map, List.getElem?_map]
      rcases alike.getElem?_children i with ⟨child, child'⟩ | ⟨c, d, child, child', same⟩
      · rw [child', show cs[i]? = none from child]
      · have inside : c ∈ cs := List.mem_of_getElem? child
        rw [child', show cs[i]? = some c from child, Option.map_some, Option.map_some,
          ih c inside same (left.parts c inside) (right.parts d (List.mem_of_getElem? child'))]
    refine ext ?_ ?_ ?_ ?_
    · rwa [form_respan, form_respan]
    · rwa [place_respan, place_respan]
    · rw [left.spans_respan, right.spans_respan, pieces]
    · rwa [left.children_respan, right.children_respan]

/-- Trees become the same tree just if they differ in their spans at most. -/
theorem respan_eq_iff (left : a.Grammatical) (right : b.Grammatical) (s : Span) :
    a.respan s = b.respan s ↔ a.Alike b := by
  refine ⟨fun same q => ?_, fun alike => alike.respan_eq left right s⟩
  rw [← alike_respan s a q, same, alike_respan s b q]

end Node

/-- Whatever is built for a place has the span of the place, everywhere. -/
theorem Replacement.build_liesAt {r : Replacement} {language : Language} {s : Span} {e : Node}
    (built : r.build language s = some e) : e.LiesAt s := by
  have leaf (form : Form) : (Node.mk form .value s []).LiesAt s :=
    Node.liesAt_mk.mpr ⟨List.forall_mem_singleton.mpr rfl, List.forall_mem_nil _⟩
  rcases build_cases built with ⟨form, -, rfl⟩ | ⟨form, -, rfl⟩ | ⟨text, m, read, rfl⟩
  · exact leaf form
  · exact Node.liesAt_mk.mpr
      ⟨List.forall_mem_singleton.mpr rfl, List.forall_mem_singleton.mpr (leaf form)⟩
  · exact (parseExpression_grammatical read).liesAt_respan s

namespace Pass

variable {p : Pass}

/-- A walk brings in no span. -/
theorem hasSpan_of_walk {n : Node} {s : Span} (left : (p.walk n).1.HasSpan s) : n.HasSpan s := by
  induction n using Node.induction_on with
  | step form place spans cs ih =>
    rw [walk] at left
    cases outcome : p.outcomeAt (.mk form place spans cs) with
    | replaced e =>
      rw [outcome] at left
      obtain ⟨r, built⟩ := exists_of_replaced outcome
      obtain rfl := (Replacement.build_liesAt built).eq left
      exact Node.hasSpan_root
    | unresolved =>
      rw [outcome] at left
      exact left
    | rejected =>
      rw [outcome] at left
      exact left
    | noMatch =>
      rw [outcome] at left
      rcases Node.hasSpan_mk.mp left with same | ⟨c, inside, below⟩
      · exact Node.hasSpan_mk.mpr (Or.inl same)
      · rw [walkAll_fst] at inside
        obtain ⟨d, member, rfl⟩ := List.mem_map.mp inside
        exact Node.hasSpan_mk.mpr (Or.inr ⟨d, member, ih d member below⟩)

end Pass

/-- The tree that is printed has the spans of the program that was read, and no others. -/
theorem exists_printed {t : Table} {env : Environment} {path source : String} {minify : Bool}
    {out : Output} (done : transform t env path source minify = .ok out) :
    ∃ parsed, ∃ tree : Node, parse (Language.ofPath path) source = .ok parsed ∧
      out.code = tree.print parsed.comments minify ∧
      ∀ s, tree.HasSpan s → parsed.tree.HasSpan s := by
  cases read : parse (Language.ofPath path) source with
  | error problems =>
    simp only [transform, read] at done
    cases done
  | ok parsed =>
    rw [transform_of_parse read] at done
    obtain rfl := Except.ok.inj done
    let p : Pass := { table := t, environment := env, language := Language.ofPath path }
    refine ⟨parsed, (p.run parsed.tree).1, rfl, rfl, fun s left => ?_⟩
    rw [Pass.run_eq_walk] at left
    exact Pass.hasSpan_of_walk left

/-- What is built from an expression text is the expression that the text is read as, with the span of
the place at every node and at every piece of one, of which each construct has all that its kind has.
So nothing is left of the positions in the text: texts whose expressions differ in these only build the
same, and what is printed has the spans of the program only. -/
theorem Replacement.expression_takes_span (language : Language) (text : String) (span : Span) :
    (parseExpression language text = none → (expression text).build language span = none) ∧
    (∀ e, parseExpression language text = some e →
      ∃ built, (expression text).build language span = some built ∧
        built.LiesAt span ∧ built.Alike e ∧
        (∀ q m, e.at? q = some m → m.form.Complete m.spans m.children) ∧
        ∀ other e', parseExpression language other = some e' → e'.Alike e →
          (expression other).build language span = some built) ∧
    ∀ t env path source minify out, transform t env path source minify = .ok out →
      ∃ parsed, ∃ tree : Node, parse (Language.ofPath path) source = .ok parsed ∧
        out.code = tree.print parsed.comments minify ∧
        ∀ s, tree.HasSpan s → parsed.tree.HasSpan s := by
  refine ⟨fun unread => ?_, fun e read => ?_, fun t env path source minify out => exists_printed⟩
  · rw [build, unread]
    rfl
  · have grammatical := parseExpression_grammatical read
    refine ⟨e.respan span, ?_, grammatical.liesAt_respan span, Node.alike_respan span e, ?_, ?_⟩
    · rw [build, read]
      rfl
    · exact fun q m found => (grammatical.at? found).complete
    · intro other e' read' alike
      rw [build, read', ← alike.respan_eq (parseExpression_grammatical read') grammatical span]
      rfl

/-- A call in a text with blanks and a comment is put in like one without, and so is the name after
the dot. The comment of the program stays where it was. -/
theorem Replacement.expression_takes_span_comment :
    let here : Span := ⟨40, 41⟩
    let leaf (x : String) : Node := .mk (.identifier x) .value here []
    let member : Node := .mk (.member "b" false) .value ⟨here, [here]⟩ [leaf "a"]
    let call : Node := .mk (.call false false) .value here
      [leaf "f", .mk .absent .part here [], .mk .group .part here [member]]
    let table : Table := .ofConfig ⟨{ toList := [("K", .text "f( a.b ) /* c */")] }⟩
    let out : Output := ⟨"a;\n/* d */ x = f(a.b);\n", { replaced := 1 }⟩
    (∃ e, parseExpression .plain "f( a.b ) /* c */" = some e ∧
      (expression "f( a.b ) /* c */").build .plain here = some call ∧
      call.LiesAt here ∧ call.Alike e ∧ (expression "f(a.b)").build .plain here = some call) ∧
    transform table {} "a.js" "a; /* d */ x = K;" false = .ok out ∧
    ∃ parsed, ∃ tree : Node, parse .plain "a; /* d */ x = K;" = .ok parsed ∧
      out.code = tree.print parsed.comments false ∧
      ∀ s, tree.HasSpan s → parsed.tree.HasSpan s := by
  intro here leaf member call table out
  obtain ⟨-, spaced, programs⟩ := expression_takes_span .plain "f( a.b ) /* c */" here
  have read : ∃ e e', parseExpression .plain "f( a.b ) /* c */" = some e ∧
      parseExpression .plain "f(a.b)" = some e' ∧ e.respan here = call ∧ e'.respan here = call :=
    ⟨_, _, rfl, rfl, rfl, rfl⟩
  obtain ⟨e, e', read, read', same, same'⟩ := read
  obtain ⟨built, puts, lies, alike, -, others⟩ := spaced e read
  have built_call : built = call := by
    rw [build, read] at puts
    exact (Option.some.inj puts).symm.trans same
  subst built_call
  have done : transform table {} "a.js" "a; /* d */ x = K;" false = .ok out :=
    ok_of_toOption (by decide +kernel)
  have left := parseExpression_grammatical read'
  have right := parseExpression_grammatical read
  refine ⟨⟨e, read, puts, lies, alike, ?_⟩, done, ?_⟩
  · exact others _ e' read' ((Node.respan_eq_iff left right here).mp (same'.trans same.symm))
  · exact programs table {} "a.js" _ false out done

/-- What is put in is longer than all that comes before the comment. -/
example :
    (transform (.ofConfig ⟨{ toList := [("K", .text "f(a, b, c)")] }⟩) {} "a.js" "K; /* d */ x;"
      false).toOption.map Output.code = some "f(a, b, c);\n/* d */ x;\n" := by decide +kernel

end Splice
