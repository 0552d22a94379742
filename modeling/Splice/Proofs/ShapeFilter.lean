import Splice.Proofs.Keys
import Splice.Proofs.Substitution

/-!
# The shape filter

Expressions of a shape that no key has are not printed. The filter changes nothing as long as no
expression is hidden by it: one that prints as a key and would be an outermost match, but whose own
shape no key has. This is possible, because a few expressions print like expressions of another
shape, and then the filter is more than a shorter way.
-/
namespace Splice

namespace Pass

/-- The pass that prints and looks up every expression. -/
def unfiltered (p : Pass) : Pass := { p with table := { p.table with shapes := Shape.all } }

/-- The filter hides an expression that prints as a key. -/
def hides (p : Pass) (e : Node) : Bool :=
  match e.place with
  | .value => !p.table.mayMatch e.shape && (p.table.lookup e.render).isSome
  | .part => false

variable (p : Pass)

@[simp] theorem mayMatch_unfiltered (s : Shape) : p.unfiltered.table.mayMatch s = true := by
  cases s <;> rfl

/-- What is hidden would be a match. -/
theorem isMatch_unfiltered (e : Node) : p.unfiltered.isMatch e = (p.isMatch e || p.hides e) := by
  have same : p.unfiltered.table.lookup e.render = p.table.lookup e.render := rfl
  unfold isMatch hides
  cases e.place with
  | part => rfl
  | value =>
    rw [mayMatch_unfiltered, same]
    cases p.table.mayMatch e.shape <;> simp

theorem isMatch_of_not_hidden {e : Node} (hit : p.unfiltered.isMatch e) (seen : p.hides e = false) :
    p.isMatch e := by
  simpa [isMatch_unfiltered, seen] using hit

theorem not_hidden_of_isMatch {e : Node} (hit : p.isMatch e) : p.hides e = false := by
  unfold isMatch at hit
  unfold hides
  cases place : e.place with
  | value =>
    rw [place] at hit
    simp [(Bool.and_eq_true_iff.mp hit).1]
  | part => rfl

/-- No outermost match is hidden. -/
def sees (n : Node) : Prop :=
  ∀ q ∈ p.unfiltered.hits n, ∀ e, n.at? q = some e → p.hides e = false

theorem sees_child {form : Form} {place : Place} {spans : Spans} {cs : List Node}
    (miss : p.unfiltered.isMatch (.mk form place spans cs) = false)
    (seen : p.sees (.mk form place spans cs)) {i : Nat} {c : Node} (child : cs[i]? = some c) :
    p.sees c := by
  intro q hit e found
  refine seen (i :: q) ?_ e (by simpa [Node.children, child] using found)
  exact (p.unfiltered.cons_mem_hits miss child).mpr hit

theorem hitsFrom_unfiltered (i : Nat) (cs : List Node)
    (each : ∀ c ∈ cs, p.hits c = p.unfiltered.hits c) :
    p.hitsFrom i cs = p.unfiltered.hitsFrom i cs := by
  induction cs generalizing i with
  | nil => rfl
  | cons c cs ih =>
    rw [hitsFrom, hitsFrom, each c (by simp), ih (i + 1) fun d member => each d (by simp [member])]

/-- If no outermost match is hidden, the walk meets the same matches. -/
theorem hits_unfiltered (n : Node) (seen : p.sees n) : p.hits n = p.unfiltered.hits n := by
  induction n using Node.induction_on with
  | step form place spans cs ih =>
    by_cases root : p.unfiltered.isMatch (.mk form place spans cs)
    · have visible : p.hides (.mk form place spans cs) = false :=
        seen [] (by simp [hits, root]) _ rfl
      have hit := p.isMatch_of_not_hidden root visible
      simp only [hits, root, hit, if_true]
    · have miss : p.unfiltered.isMatch (.mk form place spans cs) = false := by simpa using root
      have neither : p.isMatch (.mk form place spans cs) = false := by
        rw [isMatch_unfiltered, Bool.or_eq_false_iff] at miss
        exact miss.1
      simp only [hits, miss, neither, Bool.false_eq_true, if_false]
      refine p.hitsFrom_unfiltered 0 cs fun c member => ih c member ?_
      obtain ⟨i, child⟩ := List.mem_iff_getElem?.mp member
      exact p.sees_child miss seen child

theorem outermost_unfiltered_iff (n : Node) :
    p.outermost n = p.unfiltered.outermost n ↔ p.sees n := by
  constructor
  · intro same q hit e found
    rw [outermost_eq, outermost_eq] at same
    have kept : q ∈ p.hits n := by
      rw [← List.mem_toFinset, same, List.mem_toFinset]
      exact hit
    refine p.not_hidden_of_isMatch ?_
    simpa [matchesAt, found] using ((p.mem_hits n q).mp kept).1
  · intro seen
    rw [outermost_eq, outermost_eq, p.hits_unfiltered n seen]

/-- A pass is determined by the matches that it meets. -/
theorem run_unfiltered (n : Node) (seen : p.sees n) : p.run n = p.unfiltered.run n := by
  have same := p.hits_unfiltered n seen
  have nodes : p.newNodes n = p.unfiltered.newNodes n := by
    funext q
    rw [newNodes_eq, newNodes_eq, same]
    rfl
  rw [run_eq_walk, run_eq_walk]
  refine Prod.ext ?_ ?_
  · rw [walk_tree, walk_tree, nodes]
  · rw [walk_stats, walk_stats, same]
    rfl

/-- Something is hidden if the first key that prints like it has another shape, and so has every
other key. -/
theorem hides_ofConfig (c : Config) (environment : Environment) (language : Language) (e : Node) :
    (Pass.mk (Table.ofConfig c) environment language).hides e ↔
      e.place = .value ∧ (c.keyFor e.render).isSome ∧
        ∀ text v s, c.keyFor text = some (v, s) → s ≠ e.shape := by
  have shapes : (Table.ofConfig c).mayMatch e.shape = false ↔
      ∀ text v s, c.keyFor text = some (v, s) → s ≠ e.shape := by
    rw [← Bool.not_eq_true, Table.mayMatch_ofConfig]
    constructor
    · rintro none text v s found rfl
      exact none ⟨text, v, found⟩
    · rintro other ⟨text, v, found⟩
      exact other text v e.shape found rfl
  unfold hides
  cases e.place with
  | part => simp
  | value =>
    simp only [Bool.and_eq_true, Bool.not_eq_eq_eq_not, Bool.not_true, shapes, true_and,
      Table.lookup_ofConfig, Option.isSome_map]
    exact and_comm

/-- The filter leaves the outermost matches of a program alone exactly if none of them is hidden,
and then it changes neither the tree nor the counters. -/
theorem run_eq_unfiltered_of_not_hidden (c : Config) (environment : Environment)
    (language : Language) (program : Node) :
    let p : Pass := ⟨Table.ofConfig c, environment, language⟩
    (∀ e : Node, p.hides e ↔ e.place = .value ∧ (c.keyFor e.render).isSome ∧
      ∀ text v s, c.keyFor text = some (v, s) → s ≠ e.shape) ∧
    (p.outermost program = p.unfiltered.outermost program ↔
      ∀ q ∈ p.unfiltered.outermost program, ∀ e, program.at? q = some e → p.hides e = false) ∧
    (p.outermost program = p.unfiltered.outermost program →
      p.run program = p.unfiltered.run program) := by
  intro p
  refine ⟨fun e => hides_ofConfig c environment language e, ?_, ?_⟩
  · rw [outermost_unfiltered_iff, sees]
    simp only [outermost_eq, List.mem_toFinset]
  · intro same
    exact p.run_unfiltered program ((p.outermost_unfiltered_iff program).mp same)

/-- Two keys of two shapes, in an optional chain and beside it: nothing is hidden there. -/
theorem run_eq_unfiltered_of_not_hidden_chain :
    let c : Config := ⟨{ toList := [("a.b", .text "1"), ("f()", .text "2")] }⟩
    let p : Pass := ⟨Table.ofConfig c, {}, .plain⟩
    ∃ program, parse .plain "x = f(a.b?.c, (a.b), f());" = .ok program ∧
      p.run program.tree = p.unfiltered.run program.tree ∧ (p.run program.tree).2.replaced = 3 := by
  intro c p
  have read : ∃ program, parse .plain "x = f(a.b?.c, (a.b), f());" = .ok program ∧
      p.hits program.tree = p.unfiltered.hits program.tree ∧
      (p.run program.tree).2.replaced = 3 := by
    have run : (parse .plain "x = f(a.b?.c, (a.b), f());").toOption.any (fun program =>
        decide (p.hits program.tree = p.unfiltered.hits program.tree ∧
          (p.run program.tree).2.replaced = 3)) = true := by decide +kernel
    cases parsed : parse .plain "x = f(a.b?.c, (a.b), f());" with
    | ok program =>
      rw [parsed] at run
      exact ⟨program, rfl, of_decide_eq_true run⟩
    | error problems =>
      rw [parsed] at run
      cases run
  obtain ⟨program, parsed, same, count⟩ := read
  refine ⟨program, parsed, ?_, count⟩
  refine (run_eq_unfiltered_of_not_hidden c {} .plain program.tree).2.2 ?_
  rw [outermost_eq, outermost_eq, same]

/-- A number that is too large prints as the name of infinity. It is no name, so a key of this name
does not reach it, unless some other key happens to be a literal. -/
theorem shape_filter_hides_infinity :
    let one : Config := ⟨{ toList := [("Infinity", .text "1")] }⟩
    let two : Config := ⟨{ toList := [("Infinity", .text "1"), ("null", .text "2")] }⟩
    ∃ program e, parse .plain "x = 1e999;" = .ok program ∧ program.tree.at? [0, 0, 1] = some e ∧
      e.place = .value ∧ (Table.ofConfig one).mayMatch e.shape = false ∧
      (Table.ofConfig one).lookup e.render = some (.text "1") ∧
      ((Pass.mk (Table.ofConfig one) {} .plain).run program.tree).2.replaced = 0 ∧
      ((Pass.mk (Table.ofConfig one) {} .plain).unfiltered.run program.tree).2.replaced = 1 ∧
      ((Pass.mk (Table.ofConfig two) {} .plain).run program.tree).2.replaced = 1 := by
  intro one two
  have run : (parse .plain "x = 1e999;").toOption.any (fun program =>
      (program.tree.at? [0, 0, 1]).any fun e => decide (e.place = .value ∧
        (Table.ofConfig one).mayMatch e.shape = false ∧
        (Table.ofConfig one).lookup e.render = some (.text "1") ∧
        ((Pass.mk (Table.ofConfig one) {} .plain).run program.tree).2.replaced = 0 ∧
        ((Pass.mk (Table.ofConfig one) {} .plain).unfiltered.run program.tree).2.replaced = 1 ∧
        ((Pass.mk (Table.ofConfig two) {} .plain).run program.tree).2.replaced = 1)) = true := by
    decide +kernel
  cases parsed : parse .plain "x = 1e999;" with
  | ok program =>
    rw [parsed] at run
    have inner : (program.tree.at? [0, 0, 1]).any _ = true := run
    obtain ⟨e, found, facts⟩ := (Option.any_eq_true _ _).mp inner
    exact ⟨program, e, rfl, found, of_decide_eq_true facts⟩
  | error problems =>
    rw [parsed] at run
    cases run

end Pass

end Splice
