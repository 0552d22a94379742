import Splice.Proofs.Grammar.Rules
import Splice.Proofs.Substitution

/-!
# What is put in

A replacement is a leaf, the negation of one, or the expression that a text is read as. All of it has
the span of the node that it replaces.
-/
namespace Splice

namespace Node

/-! ## Giving all nodes one span -/

variable (s : Span) (n : Node)

@[simp] theorem form_respan : (n.respan s).form = n.form := by
  cases n
  rfl

@[simp] theorem place_respan : (n.respan s).place = n.place := by
  cases n
  rfl

@[simp] theorem spans_respan :
    (n.respan s).spans = n.spans.moveTo s n.form.reachedPieces := by
  cases n
  rfl

@[simp] theorem span_respan : (n.respan s).span = s := by
  cases n
  rfl

@[simp] theorem children_respan :
    (n.respan s).children = respanParts s n.form.arity n.children := by
  cases n
  rfl

theorem respanParts_cons (reached : Option Nat) (c : Node) (cs : List Node) :
    respanParts s reached (c :: cs) =
      if reached = some 0 then c :: cs
      else c.respan s :: respanParts s (reached.map Nat.pred) cs := by
  rcases reached with _ | _ | _
  all_goals simp [respanParts]

/-- Each part is reached or left as it is. -/
theorem getElem?_respanParts (reached : Option Nat) (cs : List Node) (i : Nat) :
    ∃ move, (move = respan s ∨ move = id) ∧ (respanParts s reached cs)[i]? = cs[i]?.map move := by
  induction cs generalizing reached i with
  | nil => exact ⟨id, .inr rfl, by simp [respanParts]⟩
  | cons c cs ih =>
    rw [respanParts_cons]
    split
    · exact ⟨id, .inr rfl, by simp⟩
    · cases i with
      | zero => exact ⟨respan s, .inl rfl, rfl⟩
      | succ i => exact ih _ i

/-- All parts are reached when the construct has as many as are told. -/
theorem respanParts_of_length {reached : Option Nat} {cs : List Node}
    (all : ∀ k, reached = some k → cs.length = k) : respanParts s reached cs = cs.map (respan s) := by
  induction cs generalizing reached with
  | nil => rw [respanParts, List.map_nil]
  | cons c cs ih =>
    have more : reached ≠ some 0 := fun none => by simpa using all 0 none
    rw [respanParts_cons, if_neg more, List.map_cons, ih]
    intro k told
    obtain ⟨k', rfl, rfl⟩ := Option.map_eq_some_iff.mp told
    have := all k' rfl
    rw [List.length_cons] at this
    exact (Nat.pred_eq_of_eq_succ this.symm).symm

/-- What moving a tree does not change of the parts is not changed of their sequence. -/
theorem map_respanParts {α : Type} {f : Node → α} {reached : Option Nat} {cs : List Node}
    (keeps : ∀ c ∈ cs, f (c.respan s) = f c) : (respanParts s reached cs).map f = cs.map f := by
  induction cs generalizing reached with
  | nil => rw [respanParts]
  | cons c cs ih =>
    obtain ⟨first, rest⟩ := List.forall_mem_cons.mp keeps
    rw [respanParts_cons]
    split
    · rfl
    · rw [List.map_cons, List.map_cons, first, ih rest]

/-- What holds of all parts, moved and as they are, holds of what becomes of them. -/
theorem forall_mem_respanParts {P : Node → Prop} {reached : Option Nat} {cs : List Node}
    (each : ∀ c ∈ cs, P c ∧ P (c.respan s)) : ∀ c ∈ respanParts s reached cs, P c := by
  intro c inside
  obtain ⟨i, child⟩ := List.mem_iff_getElem?.mp inside
  obtain ⟨move, moves, part⟩ := getElem?_respanParts s reached cs i
  obtain ⟨d, old, rfl⟩ := Option.map_eq_some_iff.mp (part.symm.trans child)
  have both := each d (List.mem_of_getElem? old)
  rcases moves with rfl | rfl
  · exact both.2
  · exact both.1

/-- The node at a position is moved or left as it is, and there are no others. -/
theorem at?_respan (q : Position) :
    ∃ move, (move = respan s ∨ move = id) ∧ (n.respan s).at? q = (n.at? q).map move := by
  induction q generalizing n with
  | nil => exact ⟨respan s, .inl rfl, rfl⟩
  | cons i q ih =>
    obtain ⟨move, moves, parts⟩ := getElem?_respanParts s n.form.arity n.children i
    rw [at?_cons, at?_cons, children_respan, parts]
    cases n.children[i]? with
    | none => exact ⟨id, .inr rfl, rfl⟩
    | some c =>
      rcases moves with rfl | rfl
      · exact ih c
      · exact ⟨id, .inr rfl, by simp⟩

namespace Grammatical

variable {n}

/-- The walk reaches all parts of a construct that has the parts of its kind. -/
theorem children_respan (grammatical : n.Grammatical) :
    (n.respan s).children = n.children.map (respan s) := by
  rw [Node.children_respan, respanParts_of_length s grammatical.complete.1]

/-- It reaches all pieces, too. -/
theorem spans_respan (grammatical : n.Grammatical) :
    (n.respan s).spans = ⟨s, List.replicate n.spans.inner.length s⟩ := by
  have all : n.spans.inner.length ≤ n.form.reachedPieces := grammatical.complete.2.2
  rw [Node.spans_respan, Spans.moveTo, List.take_of_length_le all, List.drop_of_length_le all,
    List.append_nil, List.map_const']

/-- Every node is moved. -/
theorem at?_respan (grammatical : n.Grammatical) (q : Position) :
    (n.respan s).at? q = (n.at? q).map (respan s) := by
  induction q generalizing n with
  | nil => rfl
  | cons i q ih =>
    rw [at?_cons, at?_cons, grammatical.children_respan, List.getElem?_map]
    cases child : n.children[i]? with
    | none => rfl
    | some c => exact ih (grammatical.parts c (List.mem_of_getElem? child))

end Grammatical

end Node

/-! ## What is built -/

namespace Replacement

/-- The forms without parts that are built. -/
inductive Leaf : Form → Prop where
  | boolean (b : Bool) : Leaf (.boolean b)
  | string (v : String) : Leaf (.string v false)
  | number (d : Double) : Leaf (.number d "")
  | name (w : String) : Leaf (.identifier w)

theorem numberNode_cases (d : Double) (s : Span) :
    (∃ form, Leaf form ∧ numberNode d s = .mk form .value s []) ∨
      ∃ form, Leaf form ∧ numberNode d s = .mk (.unary .minus) .value s [.mk form .value s []] := by
  unfold numberNode
  split
  · exact Or.inl ⟨_, .name "NaN", rfl⟩
  · extract_lets magnitude
    obtain ⟨form, leaf, same⟩ : ∃ form, Leaf form ∧ magnitude = .mk form .value s [] := by
      unfold magnitude
      split
      · exact ⟨_, .name "Infinity", rfl⟩
      · exact ⟨_, .number d.abs, rfl⟩
    rw [same]
    split
    · exact Or.inr ⟨form, leaf, rfl⟩
    · exact Or.inl ⟨form, leaf, rfl⟩

/-- Whatever is built is a leaf, a negated leaf, or an expression moved to the place. -/
theorem build_cases {r : Replacement} {language : Language} {s : Span} {e : Node}
    (built : r.build language s = some e) :
    (∃ form, Leaf form ∧ e = .mk form .value s []) ∨
      (∃ form, Leaf form ∧ e = .mk (.unary .minus) .value s [.mk form .value s []]) ∨
      ∃ text m, parseExpression language text = some m ∧ e = m.respan s := by
  cases r with
  | boolean b =>
    obtain rfl := Option.some.inj built
    exact Or.inl ⟨_, .boolean b, rfl⟩
  | number d =>
    obtain rfl := Option.some.inj built
    rcases numberNode_cases d s with leaf | negated
    · exact Or.inl leaf
    · exact Or.inr (Or.inl negated)
  | string v =>
    obtain rfl := Option.some.inj built
    exact Or.inl ⟨_, .string v, rfl⟩
  | expression text =>
    obtain ⟨m, read, rfl⟩ := Option.map_eq_some_iff.mp built
    exact Or.inr (Or.inr ⟨text, m, read, rfl⟩)

end Replacement

/-- What is put in for a node has been built for its place. -/
theorem Pass.exists_of_replaced {p : Pass} {n e : Node} (outcome : p.outcomeAt n = .replaced e) :
    ∃ r : Replacement, r.build p.language n.span = some e := by
  by_cases hit : p.isMatch n = true
  · obtain ⟨v, -, same⟩ := p.outcomeAt_of_match hit
    rw [same, outcomeOf] at outcome
    split at outcome
    · cases outcome
    next r _ =>
      split at outcome
      next built =>
        obtain rfl := Outcome.replaced.inj outcome
        exact ⟨r, built⟩
      · cases outcome
  · rw [p.outcomeAt_of_not_match (by simpa using hit)] at outcome
    cases outcome

end Splice
