import Mathlib
import Splice.Proofs.Constants
import Splice.Proofs.Grammar.Program
import Splice.Proofs.Keys
import Splice.Proofs.Replacements
import Splice.Proofs.Spared

/-!
# Shorthand properties

A shorthand property stands for the variable of its own name. A pass that replaces the variable gives
the property its key back, and leaves the key as it is; so after any passes every property that is
still marked as a shorthand is one, also in the expressions that were put in.
-/
namespace Splice

namespace Node

/-- Every shorthand property of the tree stands for the variable of its name. -/
def ShorthandsAgree (n : Node) : Prop := ∀ q m, n.at? q = some m → m.form.Agrees m.children

variable {form : Form} {place : Place} {spans : Spans} {cs : List Node} {n : Node}

theorem shorthandsAgree_mk : (mk form place spans cs).ShorthandsAgree ↔
    form.Agrees cs ∧ ∀ c ∈ cs, c.ShorthandsAgree :=
  forall_at?_mk

/-- Most constructs have no shorthand. -/
theorem shorthandsAgree_of_not_property (other : ∀ t, form ≠ .property t)
    (below : ∀ c ∈ cs, c.ShorthandsAgree) : (mk form place spans cs).ShorthandsAgree := by
  refine shorthandsAgree_mk.mpr ⟨?_, below⟩
  cases form with
  | property t => exact absurd rfl (other t)
  | _ => trivial

theorem Grammatical.shorthandsAgree (grammatical : n.Grammatical) : n.ShorthandsAgree :=
  fun _ _ found => (grammatical.at? found).asks.2

/-- Positions do not matter. -/
theorem ShorthandsAgree.respan (agree : n.ShorthandsAgree) (s : Span) :
    (n.respan s).ShorthandsAgree := by
  induction n using Node.induction_on with
  | step form place spans cs ih =>
    obtain ⟨here, below⟩ := shorthandsAgree_mk.mp agree
    rw [Node.respan]
    refine shorthandsAgree_mk.mpr ⟨?_, ?_⟩
    · cases form with
      | property t =>
        intro shorthand
        obtain ⟨w, name, value, rfl⟩ := here shorthand
        exact ⟨w, name.moveTo s 0, value.moveTo s 0, rfl⟩
      | _ => trivial
    · exact forall_mem_respanParts s fun c inside => ⟨below c inside, ih c inside (below c inside)⟩

end Node

/-! ## What is put in -/

/-- Whatever is built has shorthands that agree. -/
theorem Replacement.build_shorthandsAgree {r : Replacement} {language : Language} {span : Span}
    {e : Node} (built : r.build language span = some e) : e.ShorthandsAgree := by
  have agree {form : Form} (leaf : Leaf form) : (Node.mk form .value span []).ShorthandsAgree :=
    Node.shorthandsAgree_of_not_property (by rintro t rfl; cases leaf) (List.forall_mem_nil _)
  rcases build_cases built with ⟨form, leaf, rfl⟩ | ⟨form, leaf, rfl⟩ | ⟨text, m, read, rfl⟩
  · exact agree leaf
  · exact Node.shorthandsAgree_of_not_property (by rintro t same; cases same)
      (List.forall_mem_singleton.mpr (agree leaf))
  · exact (parseExpression_grammatical read).shorthandsAgree.respan span

namespace Pass

variable {p : Pass}

theorem outcomeAt_shorthandsAgree {n e : Node} (outcome : p.outcomeAt n = .replaced e) :
    e.ShorthandsAgree := by
  obtain ⟨r, built⟩ := exists_of_replaced outcome
  exact Replacement.build_shorthandsAgree built

/-! ## A walk -/

/-- A leaf that is not replaced is left as it is. -/
theorem walk_leaf {form : Form} {place : Place} {spans : Spans}
    (stays : (p.outcomeAt (.mk form place spans [])).isReplaced = false) :
    (p.walk (.mk form place spans [])).1 = .mk form place spans [] := by
  rw [walk]
  cases outcome : p.outcomeAt (.mk form place spans []) with
  | replaced e =>
    rw [outcome] at stays
    cases stays
  | unresolved => rfl
  | rejected => rfl
  | noMatch =>
    have same : p.afterParts form [] = form := p.afterParts_of_not_replaced form (List.forall_mem_nil _)
    simp only [walkAll, same]

/-- A property that is still a shorthand after its parts have been walked over has its parts still. -/
theorem agrees_walkAll {form : Form} {cs : List Node} (agrees : form.Agrees cs) :
    (p.afterParts form cs).Agrees (p.walkAll cs).1 := by
  unfold afterParts
  split
  next t =>
    split
    · nofun
    next stays =>
      intro shorthand
      obtain ⟨w, s, s', rfl⟩ := agrees shorthand
      refine ⟨w, s, s', ?_⟩
      simp only [shorthand, Bool.true_and, List.drop_succ_cons, List.drop_zero, List.any_cons,
        List.any_nil, Bool.or_false, Bool.not_eq_true] at stays
      have key : (p.walk (.mk (.name w) .part s [])).1 = .mk (.name w) .part s [] := walk_leaf rfl
      have value := walk_leaf stays
      simp only [walkAll, key, value]
  next other =>
    cases form with
    | property t => exact absurd rfl (other t)
    | _ => trivial

/-- One walk keeps all shorthands in agreement. -/
theorem walk_shorthandsAgree {n : Node} (agree : n.ShorthandsAgree) :
    (p.walk n).1.ShorthandsAgree := by
  induction n using Node.induction_on with
  | step form place spans cs ih =>
    rw [walk]
    cases outcome : p.outcomeAt (.mk form place spans cs) with
    | replaced e => exact outcomeAt_shorthandsAgree outcome
    | unresolved => exact agree
    | rejected => exact agree
    | noMatch =>
      obtain ⟨here, below⟩ := Node.shorthandsAgree_mk.mp agree
      refine Node.shorthandsAgree_mk.mpr ⟨agrees_walkAll here, ?_⟩
      rw [walkAll_fst, List.forall_mem_map]
      exact fun c inside => ih c inside (below c inside)

theorem run_shorthandsAgree {n : Node} (agree : n.ShorthandsAgree) :
    (p.run n).1.ShorthandsAgree := by
  rw [run_eq_walk]
  exact walk_shorthandsAgree agree

/-- Passes over the same tree, one after the other. -/
def runs (passes : List Pass) (n : Node) : Node := passes.foldl (fun m p => (p.run m).1) n

theorem runs_shorthandsAgree (passes : List Pass) {n : Node} (agree : n.ShorthandsAgree) :
    (runs passes n).ShorthandsAgree := by
  unfold runs
  induction passes generalizing n with
  | nil => exact agree
  | cons p passes ih => exact ih (run_shorthandsAgree agree)

/-! ## Keys -/

/-- A place with a new node is a place of the tree. -/
theorem at?_of_newNodes {n e : Node} {q : Position} (put : p.newNodes n q = some e) :
    ∃ m, n.at? q = some m := by
  rw [newNodes_eq] at put
  split at put
  next hit =>
    have matched := ((p.mem_hits n q).mp hit).1
    rw [matchesAt, Option.any_eq_true] at matched
    exact ⟨matched.choose, matched.choose_spec.1⟩
  · cases put

/-- What splicing makes of the traits of a property: only the mark of a shorthand may go. -/
theorem afterSplice_property {n m : Node} {q : Position} {t : PropertyTraits}
    (found : n.at? q = some m) (property : m.form = .property t) :
    ∃ t', m.form.afterSplice m.children.length (fun r => p.newNodes n (q ++ r)) = .property t' ∧
      { t' with shorthand := t.shorthand } = t ∧
      (t'.shorthand = true ↔
        t.shorthand = true ∧ ∀ i, i ≠ 0 → p.newNodes n (q ++ [i]) = none) := by
  rw [property]
  simp only [Form.afterSplice]
  split
  next gone =>
    refine ⟨_, rfl, rfl, iff_of_false Bool.false_ne_true ?_⟩
    rintro ⟨-, none⟩
    obtain ⟨-, some⟩ := (Bool.and_eq_true ..).mp gone
    obtain ⟨i, -, put⟩ := List.any_eq_true.mp some
    simp only [Bool.and_eq_true, bne_iff_ne, ne_eq] at put
    rw [none i put.1] at put
    cases put.2
  next stays =>
    refine ⟨t, rfl, rfl, fun shorthand => ⟨shorthand, fun i later => ?_⟩, And.left⟩
    cases put : p.newNodes n (q ++ [i]) with
    | none => rfl
    | some e =>
      obtain ⟨c, child⟩ := at?_of_newNodes put
      rw [Node.at?_append, found, Option.bind_some, Node.at?_cons] at child
      obtain ⟨_, inside, -⟩ := Option.bind_eq_some_iff.mp child
      refine absurd ?_ stays
      rw [shorthand, Bool.true_and, List.any_eq_true]
      exact ⟨i, List.mem_range.mpr (List.getElem?_eq_some_iff.mp inside).1, by simp [later, put]⟩

/-- A property outside replaced expressions whose key is a name keeps this key, and it stays marked as
a shorthand unless a part after the key is replaced. -/
theorem key_stays {n m : Node} {q : Position} {t : PropertyTraits} {w : String} {s : Spans}
    {rest : List Node} (found : n.at? q = some m) (spared : p.Spares n q)
    (property : m.form = .property t) (key : m.children = .mk (.name w) .part s [] :: rest) :
    ∃ m' t' rest', (p.run n).1.at? q = some m' ∧ m'.form = .property t' ∧
      m'.children = .mk (.name w) .part s [] :: rest' ∧ { t' with shorthand := t.shorthand } = t ∧
      (t'.shorthand = true ↔
        t.shorthand = true ∧ ∀ i, i ≠ 0 → p.newNodes n (q ++ [i]) = none) := by
  have here : (fun r => p.newNodes n (q ++ r)) [] = none :=
    (congrArg (p.newNodes n) (List.append_nil q)).trans (spared q (List.prefix_refl q))
  have first : p.newNodes n (q ++ [0]) = none := by
    refine newNodes_part (m := .mk (.name w) .part s []) ?_ rfl
    rw [Node.at?_append, found]
    simp [key]
  obtain ⟨t', form, traits, shorthand⟩ := afterSplice_property found property
  refine ⟨m.spliceAt fun r => p.newNodes n (q ++ r), t',
    Node.spliceFrom (fun r => p.newNodes n (q ++ r)) 1 rest, ?_, ?_, ?_, traits, shorthand⟩
  · rw [at?_run spared, found]
    rfl
  · rw [Node.spliceAt_of_none m here]
    exact form
  · rw [Node.children_spliceAt here, key, Node.spliceFrom, Node.spliceAt_of_none _ first]
    rfl

/-! ## Counters -/

/-- The position lies in the key or in the value of the property at `q`. -/
def inProperty (q r : Position) : Bool := (q ++ [0]).isPrefixOf r || (q ++ [1]).isPrefixOf r

theorem tally_filter (n : Node) (qs : List Position) (own : Position → Bool) :
    p.tally n qs = p.tally n (qs.filter own) + p.tally n (qs.filter fun r => !own r) := by
  have count (P : Position → Bool) : qs.countP P =
      (qs.filter own).countP P + (qs.filter fun r => !own r).countP P := by
    induction qs with
    | nil => rfl
    | cons r qs ih =>
      cases here : own r <;> simp [here, List.countP_cons, ih] <;> omega
  simp only [tally, count fun q => (p.replacementAt n q).isSome, count (p.isUnset n),
    count (p.isUnreadable n)]
  rfl

/-- One match adds one to one counter. -/
theorem tally_singleton {n : Node} {q : Position} (hit : p.matchesAt n q = true) :
    p.tally n [q] ∈ [(⟨1, 0, 0⟩ : Stats), ⟨0, 1, 0⟩, ⟨0, 0, 1⟩] := by
  have total := p.tally_total n [q] (List.forall_mem_singleton.mpr hit)
  cases stats : p.tally n [q] with
  | mk replaced unresolved rejected =>
    rw [stats] at total
    simp only [List.length_singleton] at total
    simp only [List.mem_cons, Stats.mk.injEq, List.not_mem_nil, or_false]
    omega

/-- In a shorthand property whose value is an outermost match there is no other one. -/
theorem hits_inProperty {n m : Node} {q : Position} {t : PropertyTraits} (agree : n.ShorthandsAgree)
    (found : n.at? q = some m) (property : m.form = .property t) (shorthand : t.shorthand = true)
    (value : q ++ [1] ∈ p.outermost n) : (p.hits n).filter (inProperty q) = [q ++ [1]] := by
  rw [outermost_eq, List.mem_toFinset] at value
  have agrees := agree q m found
  rw [property] at agrees
  obtain ⟨w, s, s', children⟩ := agrees shorthand
  have key : n.at? (q ++ [0]) = some (.mk (.name w) .part s []) := by
    rw [Node.at?_append, found]
    simp [children]
  have only : ∀ r ∈ p.hits n, inProperty q r = (r == q ++ [1]) := by
    intro r hit
    obtain ⟨matched, outer⟩ := (p.mem_hits n r).mp hit
    rw [Bool.eq_iff_iff, beq_iff_eq, inProperty, Bool.or_eq_true, List.isPrefixOf_iff_prefix,
      List.isPrefixOf_iff_prefix]
    constructor
    · rintro (⟨r', rfl⟩ | below)
      · -- the key is no expression and has no parts
        rw [matchesAt, Node.at?_append, key, Option.bind_some] at matched
        cases r' with
        | nil => cases matched
        | cons i r' => cases matched
      · exact (outer _ ((p.mem_hits n _).mp value).1 below).symm
    · rintro rfl
      exact .inr (List.prefix_refl _)
  rw [List.filter_congr only, List.filter_beq, List.count_eq_one_of_mem (p.nodup_hits n) value]
  rfl

/-- Every parsed program has shorthand properties only for variables of the same name, and so has
every tree that a pass, or any passes, make of such a tree. A property outside replaced expressions
whose key is a name keeps the key, and it stays a shorthand unless its value is replaced. A shorthand
property whose value is an outermost match adds one to one of the counters. -/
theorem shorthands_stay_consistent {n : Node} (agree : n.ShorthandsAgree) (p : Pass) :
    (∀ {language source program}, parse language source = .ok program →
      program.tree.ShorthandsAgree) ∧
    (p.run n).1.ShorthandsAgree ∧
    (∀ passes, (runs passes n).ShorthandsAgree) ∧
    (∀ q m t w s rest, n.at? q = some m → m.form = .property t →
      m.children = .mk (.name w) .part s [] :: rest → (∀ r, r <+: q → p.newNodes n r = none) →
      ∃ m' t' rest', (p.run n).1.at? q = some m' ∧ m'.form = .property t' ∧
        m'.children = .mk (.name w) .part s [] :: rest' ∧ { t' with shorthand := t.shorthand } = t ∧
        (t'.shorthand = true ↔
          t.shorthand = true ∧ ∀ i, i ≠ 0 → p.newNodes n (q ++ [i]) = none)) ∧
    (∀ q m t, n.at? q = some m → m.form = .property t → t.shorthand = true →
      q ++ [1] ∈ p.outermost n →
      (p.run n).2 = p.tally n ((p.hits n).filter (inProperty q)) +
        p.tally n ((p.hits n).filter fun r => !inProperty q r) ∧
      p.tally n ((p.hits n).filter (inProperty q)) ∈
        [(⟨1, 0, 0⟩ : Stats), ⟨0, 1, 0⟩, ⟨0, 0, 1⟩]) := by
  refine ⟨fun read => (parse_grammatical read).shorthandsAgree, run_shorthandsAgree agree,
    fun passes => runs_shorthandsAgree passes agree, ?_, ?_⟩
  · intro q m t w s rest found property key outside
    exact key_stays found outside property key
  · intro q m t found property shorthand value
    constructor
    · rw [run_eq_walk, walk_stats, ← tally_filter]
    · rw [hits_inProperty agree found property shorthand value]
      rw [outermost_eq, List.mem_toFinset] at value
      exact tally_singleton ((p.mem_hits n _).mp value).1

/-- A shorthand property gets an object with a shorthand property of its own. -/
theorem shorthands_stay_consistent_nested :
    let p : Pass := ⟨.ofConfig ⟨{ toList := [("a", .text "\x7b c \x7d")] }⟩, {}, .plain⟩
    ∃ program, parse .plain "x = \x7b a, b \x7d;" = .ok program ∧ program.tree.ShorthandsAgree ∧
      (p.run program.tree).2 = { replaced := 1 } ∧ (p.run program.tree).1.ShorthandsAgree ∧
      (runs [p, p] program.tree).ShorthandsAgree := by
  intro p
  have run : (parse .plain "x = \x7b a, b \x7d;").toOption.any (fun program =>
      decide ((p.run program.tree).2 = { replaced := 1 })) = true := by decide +kernel
  obtain ⟨program, read, counts⟩ := exists_ok_of_any run
  have agree := (parse_grammatical read).shorthandsAgree
  obtain ⟨-, once, more, -, -⟩ := shorthands_stay_consistent agree p
  exact ⟨program, read, agree, of_decide_eq_true counts, once, more [p, p]⟩

end Pass

end Splice
