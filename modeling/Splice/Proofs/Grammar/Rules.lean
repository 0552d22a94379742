import Splice.Grammar.Target
import Splice.Proofs.Names

/-!
# What constructs ask of their parts

A construct says how many parts and pieces it has and which of the parts are assigned to, and a
property that says its name only once says the same name with its key and with its value. Trees that
are read keep to these rules at every node.
-/
namespace Splice

/-! ## Roots of targets -/

/-- What is assigned to in the end: a variable, or a property of an object. -/
inductive Root where
  | variable (name : String)
  | property (name : String)
  | privateProperty (name : String)
  /-- A property whose name is computed. -/
  | computed
deriving DecidableEq, Repr

namespace Form

def root? : Form → Option Root
  | identifier w => some (.variable w)
  | member w _ => some (.property w)
  | privateMember w _ => some (.privateProperty w)
  | index _ => some .computed
  | _ => none

/-- Targets that have targets of their own, the gaps between them, and declared variables. -/
def isPattern : Form → Bool
  | arrayTarget | objectTarget | targetDefault | targetShorthand | targetProperty _ | targetRest
  | hole | variableDecl _ _ => true
  | _ => false

/-- The part with the given number is assigned to. -/
def assigns : Form → Nat → Bool
  | assign _, i | update _ _, i | forIn, i | forOf _, i | targetDefault, i | targetShorthand, i
  | targetRest, i => i == 0
  | targetProperty _, i => i == 1
  | arrayTarget, _ | objectTarget, _ => true
  | _, _ => false

/-- The parts that are assigned to. -/
def assigned : Form → List Node → List Node
  | assign _, cs | update _ _, cs | forIn, cs | forOf _, cs | targetDefault, cs
  | targetShorthand, cs | targetRest, cs => cs.take 1
  | targetProperty _, cs => (cs.drop 1).take 1
  | arrayTarget, cs | objectTarget, cs => cs
  | _, _ => []

theorem mem_assigned {form : Form} {cs : List Node} {i : Nat} {t : Node}
    (assigns : form.assigns i = true) (child : cs[i]? = some t) : t ∈ form.assigned cs := by
  have inside : t ∈ cs := List.mem_of_getElem? child
  have first : i = 0 → t ∈ cs.take 1 := by
    rintro rfl
    exact List.mem_of_getElem? (i := 0) (by simpa using child)
  have second : i = 1 → t ∈ (cs.drop 1).take 1 := by
    rintro rfl
    exact List.mem_of_getElem? (i := 0) (by simpa using child)
  cases form with
  | arrayTarget | objectTarget => exact inside
  | targetProperty => exact second (by simpa [Form.assigns] using assigns)
  | assign | update | forIn | forOf | targetDefault | targetShorthand | targetRest =>
    exact first (by simpa [Form.assigns] using assigns)
  | _ => cases assigns

end Form

namespace Node

/-- What is assigned to where the expression is a target. -/
def root? (n : Node) : Option Root := n.innermost.form.root?

/-- A target is not read for its value, and it is a pattern or leads to a variable or property. -/
def IsTarget (n : Node) : Prop :=
  n.place = .part ∧ (n.form.isPattern = true ∨ n.root?.isSome = true)

end Node

namespace Node

/-- What is no wrapping is innermost. -/
theorem isReference_innermost {n : Node} (reference : n.form.isReference = true) :
    n.innermost.form.isReference = true := by
  obtain ⟨form, place, spans, cs⟩ := n
  unfold innermost
  split
  all_goals first
    | exact reference
    | cases reference

theorem form_innermostAt (i : Nat) {a b : Node} (same : a.form = b.form) (cs : List Node) :
    (innermostAt i a cs).form = (innermostAt i b cs).form := by
  induction cs generalizing i with
  | nil => simpa only [innermostAt] using same
  | cons c cs ih =>
    cases i with
    | zero => simp only [innermostAt]
    | succ i =>
      simp only [innermostAt]
      exact ih i

theorem form_innermost_withPlace (n : Node) (place : Place) :
    (n.withPlace place).innermost.form = n.innermost.form := by
  obtain ⟨form, _, span, cs⟩ := n
  unfold withPlace innermost
  split
  all_goals first
    | (apply form_innermostAt; rfl)
    | rfl

/-- Names and properties can be assigned to, also when they are wrapped. -/
theorem isTarget_withPlace {n : Node} (root : n.innermost.form.isReference = true) :
    (n.withPlace .part).IsTarget := by
  refine ⟨by cases n; rfl, .inr ?_⟩
  rw [root?, form_innermost_withPlace]
  revert root
  cases n.innermost.form <;> simp [Form.isReference, Form.root?]

end Node

/-! ## Rules -/

namespace Form

/-- A property that stands for a variable of its own name. -/
def Agrees : Form → List Node → Prop
  | property t, cs => t.shorthand = true → ∃ w s s',
      cs = [.mk (.name w) .part s [], .mk (.identifier w) .value s' []]
  | _, _ => True

/-- What a construct asks of its targets and of its names. -/
def Asks (form : Form) (cs : List Node) : Prop :=
  (∀ t ∈ form.assigned cs, t.IsTarget) ∧ form.Agrees cs

theorem Asks.of_none {form : Form} {cs : List Node} (none : form.assigned cs = [])
    (agrees : form.Agrees cs) : form.Asks cs :=
  ⟨none ▸ List.forall_mem_nil _, agrees⟩

/-- A construct has the parts of its kind, and the spans of their pieces. -/
def Complete (form : Form) (spans : Spans) (cs : List Node) : Prop :=
  (∀ n, form.arity = some n → cs.length = n) ∧
    form.pieces ≤ spans.inner.length ∧ spans.inner.length ≤ form.pieces + form.sparePieces

/-- Only the number of the parts counts. -/
theorem Complete.of_length {form : Form} {spans : Spans} {cs ds : List Node}
    (complete : form.Complete spans ds) (same : cs.length = ds.length) : form.Complete spans cs :=
  ⟨fun n fixed => same.trans (complete.1 n fixed), complete.2⟩

end Form

namespace Node

/-- Every construct has the parts it asks for and no others, and keeps to the rules for targets and
names. -/
inductive Grammatical : Node → Prop where
  | intro {form : Form} {place : Place} {spans : Spans} {cs : List Node}
      (value : place = .value → form.isExpression = true) (takes : form.Takes cs)
      (asks : form.Asks cs) (complete : form.Complete spans cs)
      (parts : ∀ c ∈ cs, c.Grammatical) : Grammatical (.mk form place spans cs)

namespace Grammatical

variable {n : Node}

theorem takes (grammatical : n.Grammatical) : n.form.Takes n.children := by
  obtain ⟨-, takes, -, -, -⟩ := grammatical
  exact takes

theorem asks (grammatical : n.Grammatical) : n.form.Asks n.children := by
  obtain ⟨-, -, asks, -, -⟩ := grammatical
  exact asks

theorem complete (grammatical : n.Grammatical) : n.form.Complete n.spans n.children := by
  obtain ⟨-, -, -, complete, -⟩ := grammatical
  exact complete

theorem parts (grammatical : n.Grammatical) : ∀ c ∈ n.children, c.Grammatical := by
  obtain ⟨-, -, -, -, parts⟩ := grammatical
  exact parts

/-- Every part of a grammatical tree is one. -/
theorem at? (grammatical : n.Grammatical) {q : Position} {m : Node} (found : n.at? q = some m) :
    m.Grammatical := by
  induction q generalizing n with
  | nil => exact Option.some.inj found ▸ grammatical
  | cons i q ih =>
    obtain ⟨c, child, rest⟩ := Option.bind_eq_some_iff.mp found
    exact ih (grammatical.parts c (List.mem_of_getElem? child)) rest

theorem wellFormed (grammatical : n.Grammatical) : n.WellFormed := by
  induction grammatical with
  | intro value takes _ _ _ ih => exact .intro value takes ih

end Grammatical

end Node

end Splice
