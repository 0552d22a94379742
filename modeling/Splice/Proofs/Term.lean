import Splice.Node.Basic
import Splice.Proofs.Layout

/-!
# Terms

The expressions made of names, member accesses, calls and operators, without the parentheses and
positions of any source text. A term says which tree an expression has; `Term.node` is that tree.
-/
namespace Splice

/-! ## Names -/

/-- A word that is a name wherever an expression may stand. -/
structure Name extends Word where
  free : isReservedWord text = false
  /-- These words begin expressions of their own. -/
  plain : ["await", "yield", "async"].contains text = false
deriving DecidableEq

theorem Name.text_inj {n m : Name} (same : n.text = m.text) : n = m := by
  obtain ⟨⟨text, _⟩, _, _⟩ := n
  obtain ⟨⟨text', _⟩, _, _⟩ := m
  obtain rfl : text = text' := same
  rfl

inductive Term where
  | name (n : Name)
  | member (object : Term) (property : Word)
  | call (callee : Term) (arguments : List Term)
  | unary (op : UnaryOp) (operand : Term)
  | binary (op : BinaryOp) (left right : Term)
  | logical (op : LogicalOp) (left right : Term)
  | conditional (test yes no : Term)

namespace Term

/-- A property of all terms is proved for a term from its parts. -/
theorem induction_on {motive : Term → Prop}
    (name : ∀ n, motive (name n))
    (member : ∀ o f, motive o → motive (member o f))
    (call : ∀ f as, motive f → (∀ a ∈ as, motive a) → motive (call f as))
    (unary : ∀ op x, motive x → motive (unary op x))
    (binary : ∀ op l r, motive l → motive r → motive (binary op l r))
    (logical : ∀ op l r, motive l → motive r → motive (logical op l r))
    (conditional : ∀ t y n, motive t → motive y → motive n → motive (conditional t y n))
    (e : Term) : motive e := by
  refine @Term.rec motive (fun as => ∀ a ∈ as, motive a) name member call unary binary logical
    conditional ?_ ?_ e
  · intro a absent
    cases absent
  · intro a as first rest b inside
    rcases List.mem_cons.mp inside with rfl | later
    · exact first
    · exact rest b later

/-! ## Trees -/

/-- An expression at no particular position. -/
def expr (form : Form) (children : List Node) : Node := .mk form .value ⟨⟨0, 0⟩, []⟩ children

mutual

/-- The tree of a term. -/
def node : Term → Node
  | name n => expr (.identifier n.text) []
  | member o f => expr (.member f.text false) [o.node]
  | call f as => expr (.call false false) [f.node, .absent, .group (nodes as)]
  | unary op x => expr (.unary op) [x.node]
  | binary op l r => expr (.binary op) [l.node, r.node]
  | logical op l r => expr (.logical op) [l.node, r.node]
  | conditional t y n => expr .conditional [t.node, y.node, n.node]

def nodes : List Term → List Node
  | [] => []
  | a :: as => a.node :: nodes as

end

theorem place_node (e : Term) : e.node.place = .value := by
  cases e <;> rfl

theorem nodes_eq (as : List Term) : nodes as = as.map node := by
  induction as with
  | nil => rfl
  | cons a as ih => rw [nodes, List.map_cons, ih]

mutual

/-- The term with another one in place of a name. -/
def substitute (key : Name) (new : Term) : Term → Term
  | name n => if n = key then new else name n
  | member o f => member (substitute key new o) f
  | call f as => call (substitute key new f) (substituteAll key new as)
  | unary op x => unary op (substitute key new x)
  | binary op l r => binary op (substitute key new l) (substitute key new r)
  | logical op l r => logical op (substitute key new l) (substitute key new r)
  | conditional t y n =>
    conditional (substitute key new t) (substitute key new y) (substitute key new n)

def substituteAll (key : Name) (new : Term) : List Term → List Term
  | [] => []
  | a :: as => substitute key new a :: substituteAll key new as

end

/-! ## Runs of a logical operator -/

/-- Puts a left operand before a run of an operator; the run keeps leaning to the left. -/
def graft (op : LogicalOp) (left : Term) : Term → Term
  | logical o a b => if o = op then logical op (graft op left a) b else logical op left (logical o a b)
  | e => logical op left e

/-- Grafting is associative, as the operators are. -/
theorem graft_graft (op : LogicalOp) (a b e : Term) :
    graft op a (graft op b e) = graft op (graft op a b) e := by
  induction e using Term.induction_on with
  | logical o l r ihl _ =>
    by_cases same : o = op
    · subst same
      simp only [graft, if_true, ihl]
    · simp only [graft, same, if_true, if_false]
  | name | member | call | unary | binary | conditional => simp only [graft, if_true]

mutual

/-- The term in which the runs of one logical operator lean to the left, as they do when they are
written without parentheses. -/
def regroup : Term → Term
  | name n => name n
  | member o f => member o.regroup f
  | call f as => call f.regroup (regroupAll as)
  | unary op x => unary op x.regroup
  | binary op l r => binary op l.regroup r.regroup
  | logical op l r => graft op l.regroup r.regroup
  | conditional t y n => conditional t.regroup y.regroup n.regroup

def regroupAll : List Term → List Term
  | [] => []
  | a :: as => a.regroup :: regroupAll as

end

theorem regroupAll_eq (as : List Term) : regroupAll as = as.map regroup := by
  induction as with
  | nil => rfl
  | cons a as ih => rw [regroupAll, List.map_cons, ih]

/-- The term is a run of the operator. -/
def isRun (op : LogicalOp) : Term → Bool
  | logical o _ _ => o == op
  | _ => false

mutual

/-- The runs of one logical operator lean to the left already. -/
def leans : Term → Bool
  | name _ => true
  | member o _ => o.leans
  | call f as => f.leans && leansAll as
  | unary _ x => x.leans
  | binary _ l r => l.leans && r.leans
  | logical op l r => l.leans && r.leans && !r.isRun op
  | conditional t y n => t.leans && y.leans && n.leans

def leansAll : List Term → Bool
  | [] => true
  | a :: as => a.leans && leansAll as

end

theorem leansAll_eq (as : List Term) : leansAll as = as.all leans := by
  induction as with
  | nil => rfl
  | cons a as ih => rw [leansAll, List.all_cons, ih]

theorem graft_of_not_run {op : LogicalOp} (left : Term) {e : Term} (other : e.isRun op = false) :
    graft op left e = logical op left e := by
  cases e with
  | logical o a b => exact if_neg fun same => by simp [isRun, same] at other
  | name | member | call | unary | binary | conditional => rfl

/-- Where the runs lean to the left, nothing is regrouped. -/
theorem regroup_of_leans (e : Term) (leaning : e.leans = true) : e.regroup = e := by
  induction e using Term.induction_on with
  | name n => rfl
  | member o f ih => rw [regroup, ih leaning]
  | call f as ih each =>
    rw [leans, Bool.and_eq_true, leansAll_eq, List.all_eq_true] at leaning
    have arguments : as.map regroup = as.map id :=
      List.map_congr_left fun a inside => each a inside (leaning.2 a inside)
    rw [regroup, ih leaning.1, regroupAll_eq, arguments, List.map_id]
  | unary op x ih => rw [regroup, ih leaning]
  | binary op l r ihl ihr =>
    rw [leans, Bool.and_eq_true] at leaning
    rw [regroup, ihl leaning.1, ihr leaning.2]
  | logical op l r ihl ihr =>
    rw [leans, Bool.and_eq_true, Bool.and_eq_true, Bool.not_eq_true'] at leaning
    rw [regroup, ihl leaning.1.1, ihr leaning.1.2, graft_of_not_run l leaning.2]
  | conditional t y n iht ihy ihn =>
    rw [leans, Bool.and_eq_true, Bool.and_eq_true] at leaning
    rw [regroup, iht leaning.1.1, ihy leaning.1.2, ihn leaning.2]

end Term

/-! ## Trees without parentheses and positions -/

namespace Node

/-- The node is a pair of parentheses. -/
def isParens (n : Node) : Bool :=
  match n.form with
  | .parens => true
  | _ => false

/-- What stands in parentheses, if it is one expression. -/
def unwrap (place : Place) : List Node → Node
  | [c] => if c.place = .value then c else mk .parens place ⟨⟨0, 0⟩, []⟩ [c]
  | cs => mk .parens place ⟨⟨0, 0⟩, []⟩ cs

mutual

/-- The tree without its parentheses, and with all positions forgotten. -/
def bare : Node → Node
  | mk form place _ cs =>
    match form with
    | .parens => unwrap place (bareAll cs)
    | _ => mk form place ⟨⟨0, 0⟩, []⟩ (bareAll cs)

def bareAll : List Node → List Node
  | [] => []
  | c :: cs => bare c :: bareAll cs

end

theorem bareAll_eq (cs : List Node) : bareAll cs = cs.map bare := by
  induction cs with
  | nil => rfl
  | cons c cs ih => rw [bareAll, List.map_cons, ih]

theorem bare_parens (place : Place) (spans : Spans) {c : Node} (value : c.bare.place = .value) :
    bare (mk .parens place spans [c]) = c.bare := by
  rw [bare, bareAll, bareAll, unwrap, if_pos value]

theorem bare_mk {form : Form} (place : Place) (spans : Spans) (cs : List Node)
    (plain : form ≠ .parens) : bare (mk form place spans cs) = mk form place ⟨⟨0, 0⟩, []⟩ (cs.map bare) := by
  rw [← bareAll_eq]
  cases form <;> first | rfl | exact absurd rfl plain

theorem form_of_bare {n m : Node} (same : n.bare = m) (plain : n.isParens = false) :
    n.form = m.form := by
  obtain ⟨form, place, spans, cs⟩ := n
  have other : form ≠ .parens := by
    rintro rfl
    cases plain
  rw [← same, bare_mk place spans cs other]
  rfl

@[simp] theorem bare_absent : absent.bare = absent := rfl

end Node

end Splice
