import Splice.Proofs.BlankText
import Splice.Proofs.Replacements

/-!
# Suspensions

An expression that awaits or yields belongs to the function around it, and where a replacement is
put in there may be no such function. So every suspension in an accepted text has its function in the
text as well. This is the only reason why the sole expression of a text is refused.
-/
namespace Splice

theorem Form.isFunction_of_suspends {form : Form} (suspends : form.suspends = true) :
    form.isFunction = false := by
  unfold Form.suspends at suspends
  split at suspends
  · rfl
  · rfl
  · cases suspends

namespace Node

/-- Every suspension in the tree lies inside a function of the tree. -/
def HoldsSuspensions (n : Node) : Prop :=
  ∀ q m, n.at? q = some m → m.form.suspends = true →
    ∃ r f, r <+: q ∧ r ≠ q ∧ n.at? r = some f ∧ f.form.isFunction = true

variable {hit halt : Form → Bool}

theorem anyOutsideList_eq (cs : List Node) :
    anyOutsideList hit halt cs = (cs.map fun c => c.anyOutside hit halt).any id := by
  induction cs with
  | nil => rfl
  | cons c cs ih => rw [anyOutsideList, ih, List.map_cons, List.any_cons, id]

theorem anyOutsideList_eq_false (cs : List Node) :
    anyOutsideList hit halt cs = false ↔ ∀ c ∈ cs, c.anyOutside hit halt = false := by
  simp [anyOutsideList_eq]

/-- Nothing is found outside if something is in the way to every node that is looked for. -/
theorem anyOutside_eq_false (n : Node) :
    n.anyOutside hit halt = false ↔ ∀ q m, n.at? q = some m → hit m.form = true →
      ∃ r f, r <+: q ∧ n.at? r = some f ∧ halt f.form = true := by
  induction n using Node.induction_on with
  | step form place spans cs ih =>
    rw [anyOutside]
    by_cases stop : halt form = true
    · rw [if_pos stop, eq_self, true_iff]
      exact fun q m here found => ⟨[], _, List.nil_prefix, rfl, stop⟩
    · rw [if_neg stop, Bool.or_eq_false_iff, anyOutsideList_eq_false]
      constructor
      · rintro ⟨root, below⟩ q m here found
        cases q with
        | nil =>
          cases here
          cases root.symm.trans found
        | cons i q =>
          obtain ⟨c, child, here⟩ := Option.bind_eq_some_iff.mp here
          have member := List.mem_of_getElem? child
          obtain ⟨r, f, before, there, stops⟩ := (ih c member).mp (below c member) q m here found
          refine ⟨i :: r, f, List.cons_prefix_cons.mpr ⟨rfl, before⟩, ?_, stops⟩
          rw [at?_cons, child]
          exact there
      · intro every
        refine ⟨?_, fun c member => (ih c member).mpr fun q m here found => ?_⟩
        · by_contra root
          obtain ⟨r, f, before, there, stops⟩ := every [] _ rfl (Bool.not_eq_false _ ▸ root)
          obtain rfl := List.prefix_nil.mp before
          cases there
          exact stop stops
        · obtain ⟨i, child⟩ := List.mem_iff_getElem?.mp member
          have child' : (mk form place spans cs).children[i]? = some c := child
          obtain ⟨r, f, before, there, stops⟩ :=
            every (i :: q) m (by rw [at?_cons, child']; exact here) found
          cases r with
          | nil =>
            cases there
            exact absurd stops stop
          | cons j r =>
            obtain ⟨rfl, tail⟩ := List.cons_prefix_cons.mp before
            rw [at?_cons, child'] at there
            exact ⟨r, f, tail, there, stops⟩

/-- The search for suspensions finds exactly those that lie in no function. -/
theorem suspends_eq_false (n : Node) : n.suspends = false ↔ n.HoldsSuspensions := by
  rw [suspends, anyOutside_eq_false]
  refine forall₄_congr fun q m here suspends => ?_
  refine exists_congr fun r => exists_congr fun f => and_congr_right fun before => ?_
  constructor
  · rintro ⟨there, function⟩
    refine ⟨?_, there, function⟩
    rintro rfl
    cases here.symm.trans there
    cases (Form.isFunction_of_suspends suspends).symm.trans function
  · exact And.right

theorem suspends_respan (s : Span) (n : Node) : (n.respan s).suspends = n.suspends := by
  unfold suspends
  induction n using Node.induction_on with
  | step form place spans cs ih =>
    rw [respan, anyOutside, anyOutside, anyOutsideList_eq, anyOutsideList_eq, map_respanParts s ih]

end Node

/-! ## What is put in -/

namespace Replacement

/-- No replacement suspends the function around it, of whatever kind it is. -/
theorem build_suspends {language : Language} {span : Span} {r : Replacement} {e : Node}
    (built : r.build language span = some e) : e.suspends = false := by
  rcases build_cases built with ⟨form, leaf, rfl⟩ | ⟨form, leaf, rfl⟩ | ⟨text, n, read, rfl⟩
  · cases leaf <;> rfl
  · cases leaf <;> rfl
  · obtain ⟨-, -, -, calm⟩ := parseExpression_inv read
    rw [Node.suspends_respan, calm]

end Replacement

theorem Pass.newNodes_suspends {p : Pass} {n : Node} {q : Position} {e : Node}
    (new : p.newNodes n q = some e) : e.suspends = false := by
  unfold newNodes at new
  split at new
  · obtain ⟨m, -, built⟩ := Option.bind_eq_some_iff.mp new
    split at built
    · exact Replacement.build_suspends built
    · cases built
  · cases new

/-! ## Accepted texts -/

/-- In an accepted text every suspension lies inside a function of the text. Of the texts that are
the sole expression in their parentheses, no others are refused. So a pass puts nothing into a
program that suspends the function around it. -/
theorem suspensions_stay_in_functions :
    (∀ (l : Language) (text : String) (e : Node), parseExpression l text = some e →
      e.HoldsSuspensions) ∧
    (∀ (l : Language) (text : String) (p : Parsed) (e : Node), parse l (inParens text) = .ok p →
      p.tree.soleExpression? = some e → e.HoldsSuspensions → parseExpression l text = some e) ∧
    ∀ (p : Pass) (program : Node), (p.run program).1 = program.spliceAt (p.newNodes program) ∧
      ∀ q e, p.newNodes program q = some e → e.HoldsSuspensions := by
  refine ⟨fun l text e read => ?_, fun l text p e read sole holds => ?_, fun p program => ⟨?_, ?_⟩⟩
  · obtain ⟨-, -, -, calm⟩ := parseExpression_inv read
    exact (Node.suspends_eq_false e).mp calm
  · rw [parseExpression_of_sole (sole_shown read sole) read sole,
      (Node.suspends_eq_false e).mpr holds]
    rfl
  · rw [Pass.run_eq_walk, Pass.walk_tree]
  · exact fun q e new => (Node.suspends_eq_false e).mp (Pass.newNodes_suspends new)

/-- Awaiting is fine inside a function, and only there. -/
theorem suspensions_stay_in_functions_async :
    (∃ e, parseExpression .plain "async () => await x" = some e ∧ e.HoldsSuspensions) ∧
      parseExpression .plain "await x" = none :=
  have ⟨e, read⟩ := Option.isSome_iff_exists.mp
    (show (parseExpression .plain "async () => await x").isSome = true by decide +kernel)
  ⟨⟨e, read, suspensions_stay_in_functions.1 _ _ e read⟩, by decide +kernel⟩

end Splice
