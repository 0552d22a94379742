import Mathlib
import Splice.Proofs.Grammar.Program
import Splice.Proofs.Keys
import Splice.Proofs.Spared
import Splice.Transform

/-!
# Assignment targets

A pass goes through the targets of assignments, because they have expressions inside. A target itself
is not read for its value, so it is never replaced: patterns stay the patterns they are, and a target
that is a name or a property stays this name or property. But what stands under a type annotation in
a target is an expression like any other, and where it is replaced the target has another root.
-/
namespace Splice

/-- The number of the part that a wrapping is about. -/
def Form.wrapped? : Form → Option Nat
  | parens | asType | satisfies | nonNull | instantiation => some 0
  | assertion => some 1
  | _ => none

namespace Node

variable {form : Form} {place : Place} {spans : Spans} {cs : List Node}

/-! ## The way to the root -/

mutual

/-- The position of the innermost expression: the way through parentheses and type annotations. -/
def rootWay : Node → Position
  | mk form _ _ cs =>
    match form.wrapped? with
    | some i => rootWayAt i i cs
    | none => []

/-- The way through the child number `i`, which is number `k` in the list. -/
def rootWayAt (i : Nat) : (k : Nat) → List Node → Position
  | _, [] => []
  | 0, c :: _ => i :: rootWay c
  | k + 1, _ :: cs => rootWayAt i k cs

end

theorem rootWayAt_eq (i k : Nat) (cs : List Node) :
    rootWayAt i k cs = (cs[k]?.map fun c => i :: c.rootWay).getD [] := by
  induction cs generalizing k with
  | nil => simp [rootWayAt]
  | cons c cs ih =>
    cases k with
    | zero => simp [rootWayAt]
    | succ k => simpa [rootWayAt] using ih k

theorem innermostAt_eq (k : Nat) (default : Node) (cs : List Node) :
    innermostAt k default cs = (cs[k]?.map innermost).getD default := by
  induction cs generalizing k with
  | nil => simp [innermostAt]
  | cons c cs ih =>
    cases k with
    | zero => simp [innermostAt]
    | succ k => simpa [innermostAt] using ih k

theorem innermost_of_wrapped {i : Nat} (wraps : form.wrapped? = some i) :
    (mk form place spans cs).innermost = (cs[i]?.map innermost).getD (mk form place spans cs) := by
  rw [← innermostAt_eq]
  cases form <;> cases wraps <;> rfl

/-- What wraps another expression has the root of that. -/
theorem wrapping {i : Nat} (wraps : form.wrapped? = some i) {c : Node} (child : cs[i]? = some c) :
    (mk form place spans cs).root? = c.root? ∧ (mk form place spans cs).rootWay = i :: c.rootWay := by
  constructor
  · rw [root?, innermost_of_wrapped wraps, child]
    rfl
  · rw [rootWay, wraps]
    simp only [rootWayAt_eq, child, Option.map_some, Option.getD_some]

theorem root?_of_wraps_nothing {i : Nat} (wraps : form.wrapped? = some i) (none : cs[i]? = none) :
    (mk form place spans cs).root? = Option.none := by
  rw [root?, innermost_of_wrapped wraps, none]
  cases form <;> first | rfl | cases wraps

theorem root?_of_not_wrapping (wraps : form.wrapped? = none) :
    (mk form place spans cs).root? = form.root? := by
  cases form <;> first | rfl | cases wraps

/-! ## What is put in on the way -/

/-- Splicing leaves the root of a tree, unless a node is put in on the way to it; then the tree has
the root of that node. -/
theorem root?_spliceAt (n : Node) (new : Position → Option Node) :
    (n.spliceAt new).root? = n.root? ∨
      ∃ r e, r <+: n.rootWay ∧ new r = some e ∧ (n.spliceAt new).root? = e.root? := by
  induction n using Node.induction_on generalizing new with
  | step form place spans cs ih =>
    cases here : new [] with
    | some e => exact .inr ⟨[], e, List.nil_prefix, here, by simp [spliceAt, here]⟩
    | none =>
      rw [spliceAt_of_none _ here]
      change (mk (form.afterSplice cs.length new) place spans (spliceFrom new 0 cs)).root? = _ ∨
        ∃ r e, _ ∧ _ ∧ (mk (form.afterSplice cs.length new) place spans (spliceFrom new 0 cs)).root? = _
      cases wraps : form.wrapped? with
      | none =>
        refine .inl ?_
        rw [root?_of_not_wrapping wraps]
        unfold Form.afterSplice
        split
        · split <;> rfl
        · rw [root?_of_not_wrapping wraps]
      | some i =>
        have same : form.afterSplice cs.length new = form := by
          cases form <;> first | rfl | cases wraps
        rw [same]
        cases child : cs[i]? with
        | none =>
          refine .inl ?_
          rw [root?_of_wraps_nothing wraps child, root?_of_wraps_nothing wraps]
          simp [spliceFrom_getElem?, child]
        | some c =>
          have child' : (spliceFrom new 0 cs)[i]? = some (c.spliceAt fun q => new (i :: q)) := by
            simp [spliceFrom_getElem?, child]
          obtain ⟨root, way⟩ : (mk form place spans cs).root? = c.root? ∧
              (mk form place spans cs).rootWay = i :: c.rootWay := wrapping wraps child
          rw [(wrapping wraps child').1, root, way]
          rcases ih c (List.mem_of_getElem? child) fun q => new (i :: q) with kept | ⟨r, e, on, put, is⟩
          · exact .inl kept
          · exact .inr ⟨i :: r, e, List.cons_prefix_cons.mpr ⟨rfl, on⟩, put, is⟩

end Node

namespace Pass

variable (p : Pass) {language : Language} {source : String} {program : Parsed}

/-- Every target outside replaced expressions is still there after the pass. A pattern is the pattern
it was, and any other target has the root it had, unless an expression that is wrapped in the target
has been replaced: then it has the root of the replacement. -/
theorem targets_keep_roots (read : parse language source = .ok program) {q : Position} {i : Nat}
    {parent target : Node} (found : program.tree.at? q = some parent)
    (child : parent.children[i]? = some target) (assigned : parent.form.assigns i = true)
    (outside : ∀ r, r <+: q → p.newNodes program.tree r = none) :
    ∃ parent' target', (p.run program.tree).1.at? q = some parent' ∧
      parent'.form = parent.form ∧ parent'.children[i]? = some target' ∧
      (target.form.isPattern = true ∧ target'.form = target.form ∨
        ∃ root, target.root? = some root ∧
          (target'.root? = some root ∨
            ∃ r e, r ≠ [] ∧ r <+: target.rootWay ∧
              p.newNodes program.tree (q ++ i :: r) = some e ∧ target'.root? = e.root?)) := by
  have grammatical : parent.Grammatical := (parse_grammatical read).at? found
  obtain ⟨part, fits⟩ := grammatical.asks.1 target (Form.mem_assigned assigned child)
  have at' : program.tree.at? (q ++ [i]) = some target := by
    rw [Node.at?_append, found]
    simp [child]
  have kept : p.newNodes program.tree (q ++ [i]) = none := newNodes_part at' part
  let new : Position → Option Node := fun r => p.newNodes program.tree (q ++ r)
  have here : new [] = none :=
    (congrArg (p.newNodes program.tree) (List.append_nil q)).trans (outside q (List.prefix_refl q))
  refine ⟨parent.spliceAt new, target.spliceAt fun r => new (i :: r), ?_, ?_, ?_, ?_⟩
  · rw [at?_run outside, found]
    rfl
  · refine Node.form_spliceAt here ?_
    rintro t property
    rw [property] at assigned
    cases assigned
  · rw [Node.children_spliceAt here, Node.spliceFrom_getElem?, child, Nat.zero_add]
    rfl
  · rcases fits with pattern | root
    · refine .inl ⟨pattern, Node.form_spliceAt kept ?_⟩
      rintro t property
      rw [property] at pattern
      cases pattern
    · obtain ⟨root, is⟩ := Option.isSome_iff_exists.mp root
      refine .inr ⟨root, is, ?_⟩
      rcases target.root?_spliceAt fun r => new (i :: r) with same | ⟨r, e, on, put, same⟩
      · exact .inl (same.trans is)
      · refine .inr ⟨r, e, ?_, on, put, same⟩
        rintro rfl
        cases kept.symm.trans put

/-- In a pattern the object of a target is replaced, and the target is the same property of another
object. -/
theorem targets_keep_roots_property :
    let p : Pass := ⟨.ofConfig ⟨{ toList := [("a", .text "q"), ("b", .text "z")] }⟩, {}, .plain⟩
    ∃ program parent target, parse .plain "[a, b.c] = d;" = .ok program ∧
      program.tree.at? [0, 0, 0] = some parent ∧ parent.children[1]? = some target ∧
      parent.form.assigns 1 = true ∧ (∀ r, r <+: [0, 0, 0] → p.newNodes program.tree r = none) ∧
      (p.run program.tree).2 = { replaced := 1 } ∧
      ∃ parent' target', (p.run program.tree).1.at? [0, 0, 0] = some parent' ∧
        parent'.children[1]? = some target' ∧ target'.root? = some (.property "c") := by
  intro p
  have run : (parse .plain "[a, b.c] = d;").toOption.any (fun program =>
      p.hits program.tree == [[0, 0, 0, 1, 0]] && (p.run program.tree).2 == { replaced := 1 } &&
        (program.tree.at? [0, 0, 0]).any fun parent => parent.form.assigns 1 &&
          parent.children[1]?.any fun target => target.root? == some (.property "c") &&
            target.rootWay == [] && !target.form.isPattern) = true := by
    decide +kernel
  obtain ⟨program, read, run⟩ := exists_ok_of_any run
  simp only [Bool.and_eq_true, beq_iff_eq, Option.any_eq_true, Bool.not_eq_true'] at run
  obtain ⟨⟨hits, stats⟩, parent, found, assigned, target, child, ⟨root, bare⟩, single⟩ := run
  have outside : ∀ r, r <+: [0, 0, 0] → p.newNodes program.tree r = none := by
    intro r shorter
    rw [newNodes_eq, hits, if_neg]
    intro hit
    rw [List.mem_singleton.mp hit] at shorter
    exact absurd shorter (by decide)
  obtain ⟨parent', target', found', -, child', kept⟩ :=
    p.targets_keep_roots read found child assigned outside
  refine ⟨program, parent, target, read, found, child, assigned, outside, stats, parent', target',
    found', child', ?_⟩
  rcases kept with ⟨pattern, -⟩ | ⟨_, is, same | ⟨r, e, some, way, -⟩⟩
  · rw [single] at pattern
    cases pattern
  · rw [same, ← is, root]
  · rw [bare] at way
    exact absurd (List.prefix_nil.mp way) some

/-- What is wrapped in a target is replaced like any other expression, and then something else is
assigned to. -/
theorem wrapped_target_is_rewritten :
    let p : Pass := ⟨.ofConfig ⟨{ toList := [("x", .text "y")] }⟩, {}, .typedModule⟩
    ∃ program parent target, parse .typedModule "x! = 1;" = .ok program ∧
      program.tree.at? [0, 0] = some parent ∧ parent.children[0]? = some target ∧
      parent.form.assigns 0 = true ∧ (∀ r, r <+: [0, 0] → p.newNodes program.tree r = none) ∧
      target.root? = some (.variable "x") ∧
      ((p.run program.tree).1.at? [0, 0, 0]).bind Node.root? = some (.variable "y") ∧
      transform p.table {} "in.ts" "x! = 1;" false = .ok ⟨"y! = 1;\n", { replaced := 1 }⟩ := by
  intro p
  have run : (parse .typedModule "x! = 1;").toOption.any (fun program =>
      p.hits program.tree == [[0, 0, 0, 0]] &&
        ((p.run program.tree).1.at? [0, 0, 0]).bind Node.root? == some (.variable "y") &&
        (program.tree.at? [0, 0]).any fun parent => parent.form.assigns 0 &&
          parent.children[0]?.any fun target => target.root? == some (.variable "x")) = true := by
    decide +kernel
  have printed : (transform p.table {} "in.ts" "x! = 1;" false).toOption.any
      (· == ⟨"y! = 1;\n", { replaced := 1 }⟩) = true := by decide +kernel
  obtain ⟨program, read, run⟩ := exists_ok_of_any run
  obtain ⟨out, printed, same⟩ := exists_ok_of_any printed
  obtain rfl := eq_of_beq same
  simp only [Bool.and_eq_true, beq_iff_eq, Option.any_eq_true] at run
  obtain ⟨⟨hits, after⟩, parent, found, assigned, target, child, before⟩ := run
  refine ⟨program, parent, target, read, found, child, assigned, ?_, before, after, printed⟩
  intro r shorter
  rw [newNodes_eq, hits, if_neg]
  intro hit
  rw [List.mem_singleton.mp hit] at shorter
  exact absurd shorter (by decide)

end Pass

end Splice
