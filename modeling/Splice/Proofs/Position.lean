import Mathlib.Data.Finset.Card
import Mathlib.Data.List.Infix
import Splice.Define.Pass

/-!
# Positions in a tree

A position is the way from the root to a node, given by the numbers of the children on it. Splicing
puts nodes in at positions, all of them at once: every position means a node of the tree as it was
before. The pass is compared with this in `Splice.Proofs.Substitution`.
-/
namespace Splice

abbrev Position := List Nat

namespace Node

/-- A property of all nodes is proved for a node from its children. -/
theorem induction_on {motive : Node → Prop}
    (step : ∀ form place spans cs, (∀ c ∈ cs, motive c) → motive (mk form place spans cs))
    (n : Node) : motive n := by
  refine @Node.rec motive (fun cs => ∀ c ∈ cs, motive c) step ?_ ?_ n
  · intro c absent
    cases absent
  · intro c cs first rest d member
    rcases List.mem_cons.mp member with rfl | later
    · exact first
    · exact rest d later

/-! ## The node at a position -/

/-- The node at a position, if the way does not leave the tree. -/
def at? : Node → Position → Option Node
  | n, [] => some n
  | n, i :: q => n.children[i]?.bind fun c => c.at? q

@[simp] theorem at?_nil (n : Node) : n.at? [] = some n := rfl

@[simp] theorem at?_cons (n : Node) (i : Nat) (q : Position) :
    n.at? (i :: q) = n.children[i]?.bind fun c => c.at? q := rfl

section

variable {form : Form} {place : Place} {spans : Spans} {cs : List Node} {P : Node → Prop}

/-- All nodes of a tree are the root and all nodes of its parts. -/
theorem forall_at?_mk : (∀ q m, (mk form place spans cs).at? q = some m → P m) ↔
    P (mk form place spans cs) ∧ ∀ c ∈ cs, ∀ q m, c.at? q = some m → P m := by
  constructor
  · intro all
    refine ⟨all [] _ rfl, fun c member q m found => ?_⟩
    obtain ⟨i, child⟩ := List.mem_iff_getElem?.mp member
    exact all (i :: q) m (Option.bind_eq_some_iff.mpr ⟨c, child, found⟩)
  · rintro ⟨root, below⟩ q m found
    cases q with
    | nil =>
      obtain rfl : mk form place spans cs = m := Option.some.inj found
      exact root
    | cons i q =>
      obtain ⟨c, child, rest⟩ := Option.bind_eq_some_iff.mp found
      exact below c (List.mem_of_getElem? child) q m rest

theorem exists_at?_mk : (∃ q m, (mk form place spans cs).at? q = some m ∧ P m) ↔
    P (mk form place spans cs) ∨ ∃ c ∈ cs, ∃ q m, c.at? q = some m ∧ P m := by
  have none := not_congr (@forall_at?_mk form place spans cs fun m => ¬ P m)
  simpa [or_iff_not_imp_left] using none

end

/-- The positions that `below` finds below children of which the first has the number `i`. -/
def numbered (below : Node → List Position) (i : Nat) : List Node → List Position
  | [] => []
  | c :: cs => (below c).map (i :: ·) ++ numbered below (i + 1) cs

theorem mem_numbered (below : Node → List Position) (cs : List Node) (i : Nat) (q : Position) :
    q ∈ numbered below i cs ↔ ∃ j c r, cs[j]? = some c ∧ r ∈ below c ∧ q = (i + j) :: r := by
  induction cs generalizing i with
  | nil => simp [numbered]
  | cons c cs ih =>
    simp only [numbered, List.mem_append, List.mem_map, ih]
    constructor
    · rintro (⟨r, member, rfl⟩ | ⟨j, d, r, found, member, rfl⟩)
      · exact ⟨0, c, r, rfl, member, rfl⟩
      · exact ⟨j + 1, d, r, found, member, by rw [Nat.add_right_comm, Nat.add_assoc]⟩
    · rintro ⟨j, d, r, found, member, rfl⟩
      cases j with
      | zero =>
        obtain rfl : c = d := by simpa using found
        exact Or.inl ⟨r, member, rfl⟩
      | succ j =>
        refine Or.inr ⟨j, d, r, by simpa using found, member, ?_⟩
        rw [Nat.add_right_comm, Nat.add_assoc]

/-- Below a node, a position begins with the number of a child. -/
theorem cons_mem_numbered (below : Node → List Position) (cs : List Node) (i : Nat) (q : Position) :
    i :: q ∈ numbered below 0 cs ↔ ∃ c, cs[i]? = some c ∧ q ∈ below c := by
  rw [mem_numbered]
  constructor
  · rintro ⟨j, c, r, found, member, same⟩
    obtain ⟨rfl, rfl⟩ : i = j ∧ q = r := by simpa using same
    exact ⟨c, found, member⟩
  · rintro ⟨c, found, member⟩
    exact ⟨i, c, q, found, member, by rw [Nat.zero_add]⟩

theorem nodup_numbered (below : Node → List Position) (cs : List Node) (i : Nat)
    (each : ∀ c ∈ cs, (below c).Nodup) : (numbered below i cs).Nodup := by
  induction cs generalizing i with
  | nil => simp [numbered]
  | cons c cs ih =>
    have first : ((below c).map (i :: ·)).Nodup :=
      (each c (by simp)).map fun q r same => by simpa using same
    have rest := ih (i + 1) fun d member => each d (by simp [member])
    refine first.append rest ?_
    intro q left right
    obtain ⟨r, -, rfl⟩ := List.mem_map.mp left
    obtain ⟨j, d, r', -, -, same⟩ := (mem_numbered below cs (i + 1) _).mp right
    have numbers : i = i + 1 + j := (List.cons.inj same).1
    omega

mutual

/-- All positions of a tree, each node before the nodes below it. -/
def positions : Node → List Position
  | mk _ _ _ cs => [] :: positionsFrom 0 cs

def positionsFrom (i : Nat) : List Node → List Position
  | [] => []
  | c :: cs => (positions c).map (i :: ·) ++ positionsFrom (i + 1) cs

end

theorem positionsFrom_eq (cs : List Node) (i : Nat) :
    positionsFrom i cs = numbered positions i cs := by
  induction cs generalizing i with
  | nil => rfl
  | cons c cs ih => rw [positionsFrom, numbered, ih]

theorem mem_positions (n : Node) (q : Position) : q ∈ n.positions ↔ (n.at? q).isSome := by
  induction q generalizing n with
  | nil => cases n; simp [positions]
  | cons i q ih =>
    obtain ⟨form, place, spans, cs⟩ := n
    simp only [positions, List.mem_cons, reduceCtorEq, false_or, positionsFrom_eq,
      cons_mem_numbered, at?_cons, children, ih]
    cases cs[i]? <;> simp

/-! ## Splicing -/

end Node

/-- A shorthand property of which a part after the key is replaced is no longer one. -/
def Form.afterSplice (form : Form) (count : Nat) (new : Position → Option Node) : Form :=
  match form with
  | .property t =>
    if t.shorthand && (List.range count).any fun i => i != 0 && (new [i]).isSome then
      .property { t with shorthand := false }
    else form
  | _ => form

namespace Node

mutual

/-- The tree with new nodes at the positions that have one. What is put in is not looked into. -/
def spliceAt (new : Position → Option Node) : Node → Node
  | mk form place spans cs =>
    match new [] with
    | some e => e
    | none => mk (form.afterSplice cs.length new) place spans (spliceFrom new 0 cs)

/-- Splices below children of which the first has the number `i`. -/
def spliceFrom (new : Position → Option Node) (i : Nat) : List Node → List Node
  | [] => []
  | c :: cs => spliceAt (fun q => new (i :: q)) c :: spliceFrom new (i + 1) cs

end

end Node

@[simp] theorem Form.afterSplice_none (form : Form) (count : Nat) :
    form.afterSplice count (fun _ => none) = form := by
  unfold afterSplice
  split <;> simp

@[simp] theorem Node.spliceFrom_none (cs : List Node) (i : Nat)
    (same : ∀ c ∈ cs, c.spliceAt (fun _ => none) = c) :
    Node.spliceFrom (fun _ => none) i cs = cs := by
  induction cs generalizing i with
  | nil => rfl
  | cons c cs ih =>
    simp only [Node.spliceFrom]
    rw [same c (by simp), ih (i + 1) fun d member => same d (by simp [member])]

/-- Nothing to put in changes nothing. -/
@[simp] theorem Node.spliceAt_none (n : Node) : n.spliceAt (fun _ => none) = n := by
  induction n using Node.induction_on with
  | step form place spans cs ih =>
    simp only [Node.spliceAt, Form.afterSplice_none]
    rw [Node.spliceFrom_none cs 0 ih]

end Splice
