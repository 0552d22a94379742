import Splice.Proofs.Substitution

/-!
# Places that a pass leaves

A pass puts nodes in at some positions. What lies in none of them keeps its place: it is found at the
same position afterwards, with the nodes put in that lie below it.
-/
namespace Splice

namespace Node

theorem at?_append (n : Node) (q r : Position) : n.at? (q ++ r) = (n.at? q).bind fun m => m.at? r := by
  induction q generalizing n with
  | nil => rfl
  | cons i q ih =>
    simp only [List.cons_append, at?_cons]
    cases n.children[i]? with
    | none => rfl
    | some c => exact ih c

variable (new : Position → Option Node)

theorem spliceFrom_getElem? (i : Nat) (cs : List Node) (j : Nat) :
    (spliceFrom new i cs)[j]? = cs[j]?.map fun c => c.spliceAt fun q => new ((i + j) :: q) := by
  induction cs generalizing i j with
  | nil => rfl
  | cons c cs ih =>
    cases j with
    | zero => rfl
    | succ j =>
      simp only [spliceFrom, List.getElem?_cons_succ, ih]
      rw [Nat.add_right_comm, Nat.add_assoc]

variable {new}

/-- Where nothing is put in, the node stays, and what is put in below it is. -/
theorem spliceAt_of_none (n : Node) (none : new [] = none) :
    n.spliceAt new = .mk (n.form.afterSplice n.children.length new) n.place n.spans
      (spliceFrom new 0 n.children) := by
  obtain ⟨form, place, spans, cs⟩ := n
  rw [spliceAt, none]
  rfl

/-- Only properties have a form that splicing may change. -/
theorem form_spliceAt {n : Node} (none : new [] = none) (other : ∀ t, n.form ≠ .property t) :
    (n.spliceAt new).form = n.form := by
  rw [spliceAt_of_none n none]
  change n.form.afterSplice _ _ = n.form
  unfold Form.afterSplice
  split
  next t property => exact absurd property (other t)
  · rfl

theorem children_spliceAt {n : Node} (none : new [] = none) :
    (n.spliceAt new).children = spliceFrom new 0 n.children := by
  rw [spliceAt_of_none n none]
  rfl

theorem at?_spliceAt {n : Node} {q : Position} (spared : ∀ r, r <+: q → new r = none) :
    (n.spliceAt new).at? q = (n.at? q).map fun m => m.spliceAt fun r => new (q ++ r) := by
  induction q generalizing n new with
  | nil => rfl
  | cons i q ih =>
    rw [at?_cons, at?_cons, children_spliceAt (spared [] List.nil_prefix), spliceFrom_getElem?,
      Nat.zero_add]
    cases n.children[i]? with
    | none => rfl
    | some c =>
      exact ih fun r shorter => spared (i :: r) (List.cons_prefix_cons.mpr ⟨rfl, shorter⟩)

end Node

namespace Pass

variable (p : Pass) {n : Node} {q : Position}

/-- The position lies in no replaced expression. -/
def Spares (n : Node) (q : Position) : Prop := ∀ r, r <+: q → p.newNodes n r = none

variable {p}

/-- What is not read for its value is not replaced. -/
theorem newNodes_part {m : Node} (found : n.at? q = some m) (part : m.place = .part) :
    p.newNodes n q = none := by
  have miss : p.isMatch m = false := by
    unfold isMatch
    rw [part]
  rw [newNodes_eq, if_neg]
  intro hit
  have matched := ((p.mem_hits n q).mp hit).1
  rw [matchesAt, found, Option.any_some, miss] at matched
  cases matched

theorem run_tree (n : Node) : (p.run n).1 = n.spliceAt (p.newNodes n) := by
  rw [run_eq_walk, walk_tree]

/-- A spared node is found where it was. -/
theorem at?_run (spared : p.Spares n q) :
    (p.run n).1.at? q = (n.at? q).map fun m => m.spliceAt fun r => p.newNodes n (q ++ r) := by
  rw [run_tree]
  exact Node.at?_spliceAt spared

end Pass

end Splice
