import Mathlib
import Splice.Grammar.Program
import Splice.Proofs.Grammar.Rules
import Splice.Proofs.Reading

/-!
# What readers yield

A reader fails or yields a result, and the trees among its results are grammatical: this is said
of each reader of the grammar, given that it holds of the phrases inside. Here are the readers that
the others are made of.
-/
namespace Splice

open Std.Do

set_option mvcgen.warning false

variable {input : Source}

/-! ## Grammatical nodes -/

namespace Node

variable {form : Form} {place : Place} {spans : Spans} {cs : List Node} {n : Node}

@[simp] theorem form_mk : (mk form place spans cs).form = form := rfl

@[simp] theorem spans_mk : (mk form place spans cs).spans = spans := rfl

@[simp] theorem grammatical_mk : (mk form place spans cs).Grammatical ↔
    (place = .value → form.isExpression = true) ∧ form.Takes cs ∧ form.Asks cs ∧
      form.Complete spans cs ∧ ∀ c ∈ cs, c.Grammatical := by
  constructor
  · rintro ⟨value, takes, asks, complete, parts⟩
    exact ⟨value, takes, asks, complete, parts⟩
  · rintro ⟨value, takes, asks, complete, parts⟩
    exact .intro value takes asks complete parts

@[simp] theorem grammatical_absent : absent.Grammatical := by
  simp [absent, Form.Takes, Form.Asks, Form.assigned, Form.Agrees, Form.Complete, Form.arity,
    Form.pieces, Form.sparePieces]

@[simp] theorem grammatical_group : (group cs).Grammatical ↔ ∀ c ∈ cs, c.Grammatical := by
  simp [group, Form.Takes, Form.Asks, Form.assigned, Form.Agrees, Form.Complete, Form.arity,
    Form.pieces, Form.sparePieces]

theorem Grammatical.of_pair {a b : Node} (grammatical : n.Grammatical) (pair : n.children = [a, b]) :
    a.Grammatical ∧ b.Grammatical := by
  have parts := grammatical.parts
  simpa [pair] using parts

theorem grammatical_getD {o : Option Node} (grammatical : ∀ n ∈ o, n.Grammatical) :
    (o.getD absent).Grammatical := by
  cases o with
  | none => exact grammatical_absent
  | some n => exact grammatical n rfl

theorem grammatical_ite {c : Prop} [Decidable c] {a b : Node} (first : a.Grammatical)
    (second : b.Grammatical) : (if c then a else b).Grammatical := by
  split <;> assumption

/-- A grammatical expression. -/
structure IsExpression (n : Node) : Prop where
  grammatical : n.Grammatical
  isExpression : n.form.isExpression = true

attribute [simp] IsExpression.grammatical
attribute [simp high] IsExpression.isExpression

@[simp] theorem isExpression_mk : (mk form place spans cs).IsExpression ↔
    form.isExpression = true ∧ form.Takes cs ∧ form.Asks cs ∧ form.Complete spans cs ∧
      ∀ c ∈ cs, c.Grammatical := by
  constructor
  · rintro ⟨grammatical, expression⟩
    exact ⟨expression, grammatical.takes, grammatical.asks, grammatical.complete, grammatical.parts⟩
  · rintro ⟨expression, takes, asks, complete, parts⟩
    exact ⟨.intro (fun _ => expression) takes asks complete parts, expression⟩

/-- A part that is read, or left out. -/
theorem grammatical_of_ite {c : Prop} [Decidable c]
    (either : if c then n.IsExpression else n = absent) : n.Grammatical := by
  split at either
  · exact either.grammatical
  · exact either ▸ grammatical_absent

/-- A grammatical target. -/
structure IsAssignable (n : Node) : Prop where
  grammatical : n.Grammatical
  isTarget : n.IsTarget

attribute [simp] IsAssignable.grammatical IsAssignable.isTarget

theorem isAssignable_mk (pattern : form.isPattern = true) :
    (mk form .part spans cs).IsAssignable ↔
      form.Takes cs ∧ form.Asks cs ∧ form.Complete spans cs ∧ ∀ c ∈ cs, c.Grammatical := by
  constructor
  · rintro ⟨grammatical, -⟩
    exact ⟨grammatical.takes, grammatical.asks, grammatical.complete, grammatical.parts⟩
  · rintro ⟨takes, asks, complete, parts⟩
    exact ⟨.intro nofun takes asks complete parts, rfl, .inl pattern⟩

/-- A grammatical tree may stand for a mere part. -/
theorem Grammatical.withPlace (grammatical : n.Grammatical) : (n.withPlace .part).Grammatical := by
  obtain ⟨-, takes, asks, complete, parts⟩ := grammatical
  exact .intro nofun takes asks complete parts

/-- A form that asks for no more of the parts can be put in the place of another. -/
theorem Grammatical.withForm (grammatical : n.Grammatical)
    (expression : n.form.isExpression = true → form.isExpression = true)
    (takes : form.Takes n.children) (asks : form.Asks n.children)
    (complete : form.Complete n.spans n.children) : (n.withForm form).Grammatical := by
  obtain ⟨value, -, -, -, parts⟩ := grammatical
  exact .intro (fun h => expression (value h)) takes asks complete parts

theorem Grammatical.withChildren (grammatical : n.Grammatical) (takes : n.form.Takes cs)
    (asks : n.form.Asks cs) (same : cs.length = n.children.length)
    (parts : ∀ c ∈ cs, c.Grammatical) : (n.withChildren cs).Grammatical := by
  obtain ⟨value, -, -, complete, -⟩ := grammatical
  exact .intro value takes asks (complete.of_length same) parts

end Node

namespace Read

variable {α : Type} {good : α → Prop}

/-- Every result of the reader has the property. -/
abbrev Yields [input : Source] (r : Read α) (good : α → Prop) : Prop := ⦃⌜True⌝⦄ r ⦃⇓? a => ⌜good a⌝⦄

theorem yields_iff {r : Read α} : Yields r good ↔ ∀ s a s', r s = .ok a s' → good a := by
  constructor
  · intro yields s a s' read
    have holds := yields s trivial
    dsimp only [WP.wp, PredTrans.apply, EStateM.run] at holds
    rw [read] at holds
    exact holds
  · intro all s _
    dsimp only [WP.wp, PredTrans.apply, EStateM.run]
    split
    next a s' read => exact all s a s' read
    next => trivial

theorem any (r : Read α) : Yields r fun _ => True :=
  yields_iff.mpr fun _ _ _ _ => trivial

/-! ## Looking and moving

Readers that yield no trees have nothing to show, except that words have no dots. -/

@[spec] theorem unit_spec (r : Read Unit) : Yields r fun _ => True := any r

@[spec] theorem bool_spec (r : Read Bool) : Yields r fun _ => True := any r

@[spec] theorem nat_spec (r : Read Nat) : Yields r fun _ => True := any r

@[spec] theorem context_spec (r : Read Context) : Yields r fun _ => True := any r

@[spec] theorem language_spec (r : Read Language) : Yields r fun _ => True := any r

@[spec] theorem span_spec (r : Read Span) : Yields r fun _ => True := any r

@[spec] theorem word_spec (r : Read (String × Span)) : Yields r fun _ => True := any r

@[spec] theorem words_spec (r : Read (List String)) : Yields r fun _ => True := any r

@[spec] theorem peek_spec : Yields peek fun _ => True := any peek

@[spec] theorem token_spec : Yields token fun t => t.kind.Tidy := by
  mvcgen [token]
  exact ReadState.tidy _

@[spec] theorem kind_spec : Yields kind TokenKind.Tidy := by
  mvcgen [kind]
  exact ReadState.tidy _

@[spec] theorem unexpected_spec : Yields (unexpected : Read α) fun _ => False := by
  mvcgen [unexpected]

/-! ## Combining -/

/-- One reader after the other: the second one may rely on what the first one yields. -/
theorem bind_spec {β : Type} {r : Read α} {f : α → Read β} {good' : β → Prop}
    (first : Yields r good) (next : ∀ a, good a → Yields (f a) good') : Yields (r >>= f) good' := by
  rw [yields_iff] at first ⊢
  intro s b u read
  obtain ⟨a, t, run, rest⟩ := bind_inv read
  exact yields_iff.mp (next a (first _ _ _ run)) _ _ _ rest

/-- A complaint on the way changes nothing about the result. -/
theorem noteIf_spec {c : Prop} [Decidable c] {p : Problem} {f : Unit → Read α}
    (next : ∀ u, Yields (f u) good) : Yields (if c then note p >>= f else f ()) good := by
  split
  · exact bind_spec (any _) fun _ _ => next _
  · exact next ()

attribute [spec] value part within beforeMark enclosed located

variable {r : Read α}

theorem attempt_spec (yields : Yields r good) :
    Yields (attempt r) fun o => ∀ a ∈ o, good a := by
  rw [yields_iff] at yields ⊢
  intro s o s' read
  unfold attempt at read
  split at read
  next a t ok =>
    cases read
    intro b same
    cases same
    exact yields _ _ _ ok
  next =>
    cases read
    nofun

theorem attemptSome_spec {r : Read (Option α)} (yields : Yields r fun o => ∀ a ∈ o, good a) :
    Yields (attemptSome r) fun o => ∀ a ∈ o, good a := by
  rw [yields_iff] at yields ⊢
  intro s o s' read
  unfold attemptSome at read
  split at read
  next a t ok =>
    cases read
    exact yields _ _ _ ok
  next =>
    cases read
    nofun
  next =>
    cases read
    nofun

/-! ## Repeating -/

/-- What a loop goes on with, or ends with, has the property. -/
def Step.All (good : α → Prop) : Step α → Prop
  | more a | done a => good a

@[simp] theorem Step.all_more {a : α} : Step.All good (.more a) ↔ good a := .rfl

@[simp] theorem Step.all_done {a : α} : Step.All good (.done a) ↔ good a := .rfl

theorem repeatFor_spec {step : α → Read (Step α)}
    (next : ∀ a, good a → Yields (step a) (Step.All good)) (n : Nat) {a : α} (start : good a) :
    Yields (repeatFor step n a) good := by
  induction n generalizing a with
  | zero => mvcgen [repeatFor]
  | succ n ih =>
    have first := next a start
    mvcgen [repeatFor, first, ih]
    all_goals simp_all

theorem iterate_spec (good : α → Prop) {init : α} {step : α → Read (Step α)} (start : good init)
    (next : ∀ a, good a → Yields (step a) (Step.All good)) : Yields (iterate init step) good := by
  have loop := repeatFor_spec next
  mvcgen [iterate, loop]

/-- A loop that builds a tree. -/
theorem iterate_node_spec {init : Node} {step : Node → Read (Step Node)} (start : init.Grammatical)
    (next : ∀ n, n.Grammatical → Yields (step n) (Step.All Node.Grammatical)) :
    Yields (iterate init step) Node.Grammatical :=
  iterate_spec _ start next

/-- A loop that collects trees. -/
theorem iterate_nodes_spec {init : List Node} {step : List Node → Read (Step (List Node))}
    (start : ∀ n ∈ init, n.Grammatical) (next : ∀ ns, (∀ n ∈ ns, n.Grammatical) →
      Yields (step ns) (Step.All fun ns => ∀ n ∈ ns, n.Grammatical)) :
    Yields (iterate init step) fun ns => ∀ n ∈ ns, n.Grammatical :=
  iterate_spec _ start next

theorem nextItem_spec {close separator : Punct} {item : Read α} (yields : Yields item good)
    {acc : List α} (items : ∀ a ∈ acc, good a) :
    Yields (nextItem close separator item acc) (Step.All fun r => ∀ a ∈ r.1, good a) := by
  mvcgen [nextItem, yields]
  all_goals simp_all

theorem separated_spec {close separator : Punct} {item : Read α} (yields : Yields item good) :
    Yields (separated close separator item) fun r => ∀ a ∈ r.1, good a := by
  have next := @nextItem_spec _ _ _ close separator _ yields
  have loop := @iterate_spec input (List α × Bool) fun r => ∀ a ∈ r.1, good a
  mvcgen [separated, yields, loop, next]
  all_goals
    clear loop next
    simp_all

theorem untilMark_spec {close : Punct} {item : Read α} (yields : Yields item good) :
    Yields (untilMark close item) fun as => ∀ a ∈ as, good a := by
  have loop := @iterate_spec input (List α) fun as => ∀ a ∈ as, good a
  mvcgen [untilMark, loop, yields]
  all_goals
    clear loop
    simp_all

end Read

/-! ## Phrases -/

open Read in
/-- Every phrase is read as a grammatical tree, and those of expressions as expressions. -/
class Descend.Sound [input : Source] (go : Descend) : Prop where
  expression : Yields (go .expression) Node.IsExpression
  assignment : ∀ resultType, Yields (go (.assignment resultType)) Node.IsExpression
  binary : ∀ above, Yields (go (.binary above)) Node.IsExpression
  unary : Yields (go .unary) Node.IsExpression
  leftHandSide : Yields (go .leftHandSide) Node.IsExpression
  newTarget : Yields (go .newTarget) Node.IsExpression
  element : ∀ inside, Yields (go (.element inside)) Node.IsExpression
  statement : ∀ single, Yields (go (.statement single)) Node.Grammatical
  block : Yields (go .block) Node.Grammatical
  pattern : Yields (go .pattern) Node.Grammatical
  type : Yields (go .type) Node.Grammatical
  unionType : Yields (go .unionType) Node.Grammatical
  typeOperator : Yields (go .typeOperator) Node.Grammatical

attribute [spec] Descend.Sound.expression Descend.Sound.assignment Descend.Sound.binary
  Descend.Sound.unary Descend.Sound.leftHandSide Descend.Sound.newTarget Descend.Sound.element
  Descend.Sound.statement Descend.Sound.block Descend.Sound.pattern Descend.Sound.type
  Descend.Sound.unionType Descend.Sound.typeOperator

end Splice
