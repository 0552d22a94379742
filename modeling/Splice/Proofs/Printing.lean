import Splice.Print.Node
import Splice.Proofs.Spelling

/-!
# The text of a term

What the printer writes for a tree of a term, whatever parentheses the tree has. The text depends on
the surroundings in two ways: the strength decides on parentheses, and a sign right before the text
keeps apart from a sign that the text begins with.
-/
namespace Splice

namespace Term

/-! ## Text -/

/-- A space between two signs that would read as another mark. -/
def signGap (after : Option UnaryOp) (op : UnaryOp) : List Char :=
  if after = some op && (op == .plus || op == .minus) then [' '] else []

/-- Puts text in parentheses if needed; no sign stands right before text in parentheses. -/
def bracket (needed : Bool) (after : Option UnaryOp) (text : Option UnaryOp → List Char) : List Char :=
  if needed then '(' :: (text none ++ [')']) else text after

mutual

/-- The text of a term after a sign or after something else. -/
def text (after : Option UnaryOp) : Term → List Char
  | name n => n.text.toList
  | member o f => bracket (o.isWrapped .update) after (fun a => text a o) ++ '.' :: f.text.toList
  | call f as =>
    bracket (f.isWrapped .update) after (fun a => text a f) ++ '(' :: (argumentText as ++ [')'])
  | unary op x =>
    if op.isWord then op.text.toList ++ ' ' :: bracket (x.isWrapped .power) none (fun a => text a x)
    else
      signGap after op ++ (op.text.toList ++ bracket (x.isWrapped .power) (some op) (fun a => text a x))
  | binary op l r =>
    bracket (l.isWrapped (leftSpot op l)) after (fun a => text a l) ++ ' ' :: (op.text.toList ++
      ' ' :: bracket (r.isWrapped (rightSpot op)) none (fun a => text a r))
  | logical op l r =>
    bracket (l.isWrapped (sideSpot op l)) after (fun a => text a l) ++ ' ' :: (op.text.toList ++
      ' ' :: bracket (r.isWrapped (sideSpot op r)) none (fun a => text a r))
  | conditional t y n =>
    bracket (t.isWrapped .conditional) after (fun a => text a t) ++ ' ' :: '?' :: ' ' ::
      (text none y ++ ' ' :: ':' :: ' ' :: text none n)

/-- The text of arguments with commas between them. -/
def argumentText : List Term → List Char
  | [] => []
  | a :: as => text none a ++ laterText as

/-- The text of the arguments after the first one. -/
def laterText : List Term → List Char
  | [] => []
  | a :: as => ',' :: ' ' :: (text none a ++ laterText as)

end

/-- The text of a term in surroundings of the given strength. -/
def placedText (s : Strength) (after : Option UnaryOp) (e : Term) : List Char :=
  bracket (e.isWrapped s) after fun a => e.text a

end Term

/-! ## Printers -/

/-- A state in which nothing is pending: no comments, no semicolon, and no number or regular
expression before the current place. -/
structure Out.Calm (o : Out) : Prop where
  minify : o.minify = false
  comments : o.comments = []
  semicolon : o.owesSemicolon = false
  indent : o.indent = 0
  ownLine : o.indentAsSpace = false
  regexp : o.regexpEnd = 0
  number : o.numberEnd = 0
  size : o.size = o.text.length
  operator : o.operatorEnd ≤ o.size

/-- A term may be printed after the given sign, or after something that is no part of a name. -/
structure Out.Opens (o : Out) (after : Option UnaryOp) : Prop where
  apart : ∀ c ∈ o.text.head?, NameChar.isPart c = false
  sign : match after with
    | some op => o.lastOperator = some (.unary op) ∧ o.operatorEnd = o.size
    | none => o.lastOperator = none ∨ o.operatorEnd < o.size

namespace Emit

theorem get_bind {α : Type} (f : Out → StateM Out α) (o : Out) : (get >>= f) o = f o o := rfl

/-- From the given state the printer writes the characters. -/
def Writes (e : Emit) (o : Out) (cs : List Char) : Prop :=
  (e o).2.Calm ∧ (e o).2.text = cs.reverse ++ o.text

variable {e f : Emit} {o : Out} {cs ds : List Char}

theorem Writes.seq (first : e.Writes o cs)
    (next : ∀ o' : Out, o'.Calm → o'.text = cs.reverse ++ o.text → f.Writes o' ds) :
    Emit.Writes (e >>= fun _ => f) o (cs ++ ds) := by
  obtain ⟨calm, text⟩ := next _ first.1 first.2
  refine ⟨calm, ?_⟩
  change (f (e o).2).2.text = _
  rw [text, first.2, List.reverse_append, List.append_assoc]

/-- The state after one more character. -/
theorem calm_char (calm : o.Calm) (c : Char) :
    ({ o with text := c :: o.text, size := o.size + 1 } : Out).Calm :=
  { calm with
    size := by
      have size := calm.size
      simp [size]
    operator := by
      have le := calm.operator
      simp only
      omega }

theorem Writes.char (calm : o.Calm) (c : Char) : Emit.Writes (char c) o [c] :=
  ⟨calm_char calm c, rfl⟩

/-- After a character no sign stands right before the place. -/
theorem Writes.charSeq (calm : o.Calm) (c : Char)
    (next : ∀ o' : Out, o'.Calm → o'.text = c :: o.text → o'.operatorEnd < o'.size →
      f.Writes o' ds) : Emit.Writes (Emit.char c >>= fun _ => f) o (c :: ds) := by
  have le := calm.operator
  obtain ⟨calm', text⟩ := next _ (calm_char calm c) rfl (by simp only; omega)
  refine ⟨calm', ?_⟩
  change (f _).2.text = _
  rw [text, List.reverse_cons, List.append_assoc]
  rfl

theorem softSpace_apply (calm : o.Calm) : softSpace o = Emit.char ' ' o := by
  change (if !o.minify then space else pure ()) o = _
  rw [calm.minify]
  rfl

theorem Writes.spaceSeq (calm : o.Calm)
    (next : ∀ o' : Out, o'.Calm → o'.text = ' ' :: o.text → o'.operatorEnd < o'.size →
      f.Writes o' ds) : Emit.Writes (softSpace >>= fun _ => f) o (' ' :: ds) := by
  have same : (softSpace >>= fun _ => f) o = (Emit.char ' ' >>= fun _ => f) o := by
    change f (softSpace o).2 = f (Emit.char ' ' o).2
    rw [softSpace_apply calm]
  unfold Writes
  rw [same]
  exact Writes.charSeq calm ' ' next

theorem calm_chars (calm : o.Calm) (cs : List Char) :
    ({ o with text := cs.reverse ++ o.text, size := o.size + cs.length } : Out).Calm :=
  { calm with
    size := by
      have size := calm.size
      simp [size, Nat.add_comm]
    operator := by
      have le := calm.operator
      simp only
      omega }

theorem Writes.text (calm : o.Calm) (s : String) : Emit.Writes (text s) o s.toList :=
  ⟨calm_chars calm s.toList, rfl⟩

/-- A word where a term may be printed. -/
theorem Writes.word (calm : o.Calm) (apart : ∀ c ∈ o.text.head?, NameChar.isPart c = false)
    (s : String) : Emit.Writes (word s) o s.toList := by
  have none : spaceBeforeWord o = ((), o) := by
    unfold spaceBeforeWord
    rw [get_bind]
    cases text : o.text with
    | nil => rfl
    | cons c cs =>
      have size := calm.size
      have regexp : (o.regexpEnd == o.size) = false := by
        rw [calm.regexp, size, text]
        rfl
      have part := apart c (by simp [text])
      simp only [regexp, part, Bool.or_self, Bool.false_eq_true, if_false]
      rfl
  have same : Emit.word s o = Emit.text s o := by
    change Emit.text s (spaceBeforeWord o).2 = _
    rw [none]
  unfold Writes
  rw [same]
  exact Writes.text calm s

theorem Writes.wrap {needed : Bool} (calm : o.Calm) {inner outer : List Char}
    (inside : needed = true → ∀ o' : Out, o'.Calm → o'.text = '(' :: o.text →
      o'.operatorEnd < o'.size → e.Writes o' inner)
    (bare : needed = false → e.Writes o outer) :
    Emit.Writes (wrap needed e) o (if needed then '(' :: (inner ++ [')']) else outer) := by
  cases needed with
  | false => exact bare rfl
  | true =>
    exact Writes.charSeq calm '(' fun o' calm' text before =>
      (inside rfl o' calm' text before).seq fun o'' calm'' _ => Writes.char calm'' ')'

end Emit

/-! ## Trees in parentheses -/

namespace Node

theorem withoutParens_parens (place : Place) (spans : Spans) (c : Node) (cs : List Node) :
    withoutParens (mk .parens place spans (c :: cs)) = c.withoutParens := by
  rw [withoutParens, withoutParensFirst]

theorem withoutParens_mk {form : Form} (place : Place) (spans : Spans) {cs : List Node}
    (plain : form ≠ .parens ∨ cs = []) :
    withoutParens (mk form place spans cs) = mk form place spans cs := by
  rcases plain with plain | rfl
  · cases form <;> first | rfl | exact absurd rfl plain
  · cases form <;> rfl

/-- What holds of nodes that are no parentheses, and is kept by parentheses, holds of all nodes. -/
theorem parens_induct {motive : Node → Prop}
    (plain : ∀ form place spans cs, form ≠ .parens ∨ cs = [] → motive (mk form place spans cs))
    (parens : ∀ place spans c cs, motive c → motive (mk .parens place spans (c :: cs))) (n : Node) :
    motive n := by
  refine @Node.rec motive (fun cs => ∀ c ∈ cs, motive c) ?_ ?_ ?_ n
  · intro form place spans cs each
    cases cs with
    | nil => exact plain _ _ _ _ (Or.inr rfl)
    | cons c cs =>
      by_cases same : form = .parens
      · subst same
        exact parens _ _ _ _ (each c (by simp))
      · exact plain _ _ _ _ (Or.inl same)
  · intro c absent
    cases absent
  · intro c cs first rest d inside
    rcases List.mem_cons.mp inside with rfl | later
    · exact first
    · exact rest d later

/-- Parentheses of the tree are not printed. -/
theorem emit_withoutParens (n : Node) (spot : Spot) :
    n.piece.emit spot = n.withoutParens.piece.emit spot := by
  induction n using parens_induct with
  | plain form place spans cs plain => rw [withoutParens_mk place spans plain]
  | parens place spans c cs ih =>
    rw [withoutParens_parens, ← ih, piece]
    rfl

theorem bare_parens_cases (place : Place) (spans : Spans) (c : Node) (cs : List Node) :
    cs = [] ∧ c.bare.place = .value ∨ (bare (mk .parens place spans (c :: cs))).form = .parens := by
  rw [bare, bareAll]
  cases cs with
  | cons d ds => exact Or.inr rfl
  | nil =>
    rw [bareAll, unwrap]
    by_cases value : c.bare.place = .value
    · exact Or.inl ⟨rfl, value⟩
    · rw [if_neg value]
      exact Or.inr rfl

/-- The node inside the parentheses around a tree. -/
theorem of_bare {n : Node} {form : Form} {cs : List Node} (same : n.bare = Term.expr form cs)
    (other : form ≠ .parens) :
    ∃ spans ds, n.withoutParens = mk form .value spans ds ∧ ds.map bare = cs := by
  induction n using parens_induct with
  | plain form' place spans ds plain =>
    rw [withoutParens_mk place spans plain]
    have bare : (mk form' place spans ds).bare = mk form' place ⟨⟨0, 0⟩, []⟩ (ds.map bare) := by
      rcases plain with plain | rfl
      · exact bare_mk place spans ds plain
      · cases form' <;> rfl
    rw [bare, Term.expr] at same
    cases same
    exact ⟨spans, ds, rfl, rfl⟩
  | parens place spans c cs ih =>
    rcases bare_parens_cases place spans c cs with ⟨rfl, value⟩ | form'
    · rw [bare_parens place spans value] at same
      rw [withoutParens_parens]
      exact ih same
    · rw [same] at form'
      exact absurd form' other

/-- A mere part has no parentheses around it. -/
theorem part_of_bare {n : Node} {form : Form} {cs : List Node} (same : n.bare = mk form .part ⟨⟨0, 0⟩, []⟩ cs)
    (other : form ≠ .parens) : ∃ spans ds, n = mk form .part spans ds ∧ ds.map bare = cs := by
  obtain ⟨form', place, spans, ds⟩ := n
  by_cases parens : form' = .parens
  · subst parens
    cases ds with
    | nil =>
      rw [bare, bareAll, unwrap] at same
      · cases same
        exact absurd rfl other
      · intro c absurd
        cases absurd
    | cons c ds =>
      rcases bare_parens_cases place spans c ds with ⟨rfl, value⟩ | form'
      · rw [bare_parens place spans value] at same
        rw [same] at value
        cases value
      · rw [same] at form'
        exact absurd form' other
  · rw [bare_mk place spans ds parens] at same
    cases same
    exact ⟨spans, ds, rfl, rfl⟩

theorem two_of_bare {ds : List Node} {x y : Node} (parts : ds.map bare = [x, y]) :
    ∃ a b, ds = [a, b] ∧ a.bare = x ∧ b.bare = y := by
  obtain ⟨a, ds, rfl, first, rest⟩ := List.map_eq_cons_iff.mp parts
  obtain ⟨b, rfl, second⟩ := List.map_eq_singleton_iff.mp rest
  exact ⟨a, b, rfl, first, second⟩

theorem three_of_bare {ds : List Node} {x y z : Node} (parts : ds.map bare = [x, y, z]) :
    ∃ a b c, ds = [a, b, c] ∧ a.bare = x ∧ b.bare = y ∧ c.bare = z := by
  obtain ⟨a, ds, rfl, first, rest⟩ := List.map_eq_cons_iff.mp parts
  obtain ⟨b, c, rfl, second, third⟩ := two_of_bare rest
  exact ⟨a, b, c, rfl, first, second, third⟩

end Node

/-! ## Printing terms -/

theorem Node.piece_tree (n : Node) : n.piece.tree = n := by
  cases n
  rfl

theorem Term.node_eq (e : Term) : ∃ form cs, e.node = expr form cs ∧ form ≠ .parens := by
  cases e <;> exact ⟨_, _, rfl, by simp⟩

theorem Term.form_withoutParens {n : Node} {e : Term} (tree : n.bare = e.node) :
    n.withoutParens.form = e.node.form := by
  obtain ⟨form, cs, node, plain⟩ := e.node_eq
  rw [node] at tree
  obtain ⟨spans, ds, inner, -⟩ := Node.of_bare tree plain
  rw [inner, node]
  rfl

theorem Term.text_ne_nil (e : Term) (after : Option UnaryOp) : e.text after ≠ [] := by
  cases e with
  | name n =>
    obtain ⟨c, cs, text, -⟩ := n.chars_eq
    simp [Term.text, text]
  | unary op x => cases op <;> simp [Term.text, UnaryOp.isWord, UnaryOp.text]
  | member | call | binary | logical | conditional => simp [Term.text]

theorem Term.placedText_ne_nil (e : Term) (s : Strength) (after : Option UnaryOp) :
    e.placedText s after ≠ [] := by
  unfold placedText bracket
  split
  · simp
  · exact e.text_ne_nil after

theorem Out.Opens.afterChar {o o' : Out} {c : Char} (text : o'.text = c :: o.text)
    (before : o'.operatorEnd < o'.size) (apart : NameChar.isPart c = false) : o'.Opens none where
  apart := by
    intro d first
    rw [text] at first
    cases first
    exact apart
  sign := Or.inr before

/-- The piece prints the text of the term, wherever it may stand. -/
def Piece.Prints (p : Piece) (e : Term) : Prop :=
  ∀ ⦃spot : Spot⦄ ⦃after : Option UnaryOp⦄ ⦃o : Out⦄, spot.noIn = false → spot.noCall = false →
    o.Calm → o.Opens after → (p.emit spot).Writes o (e.placedText spot.strength after)

theorem Term.isWrapped_loose (e : Term) {s : Strength} (loose : s.rank < Strength.conditional.rank) :
    e.isWrapped s = false := by
  have low : Strength.conditional.rank ≤ e.level := by
    cases e with
    | binary op => cases op <;> simp [level, BinaryOp.strength, Strength.rank]
    | logical op => cases op <;> simp [level, LogicalOp.strength, Strength.rank]
    | name | member | call | unary | conditional => simp [level, Strength.rank]
  simp only [isWrapped, decide_eq_false_iff_not]
  omega

/-- Where nothing around it binds tighter than a conditional, a term stands bare. -/
theorem Piece.Prints.loose {p : Piece} {e : Term} (prints : p.Prints e) {spot : Spot}
    {after : Option UnaryOp} {o : Out} (loose : spot.strength.rank < Strength.conditional.rank)
    (noIn : spot.noIn = false) (noCall : spot.noCall = false) (calm : o.Calm)
    (opens : o.Opens after) : (p.emit spot).Writes o (e.text after) := by
  have written := prints noIn noCall calm opens
  rw [Term.placedText, e.isWrapped_loose loose] at written
  exact written

namespace Print

open Emit

variable {spot : Spot} {after : Option UnaryOp} {o : Out}

/-- A construct that the surroundings put in parentheses, or do not. -/
theorem wrap_writes {inner : Emit} {needed : Bool} {e : Term}
    (wrapped : needed = e.isWrapped spot.strength) (calm : o.Calm) (opens : o.Opens after)
    (writes : ∀ (a : Option UnaryOp) (o' : Out), o'.Calm → o'.Opens a → inner.Writes o' (e.text a)) :
    Emit.Writes (wrap needed inner) o (e.placedText spot.strength after) := by
  unfold Term.placedText
  rw [← wrapped]
  refine Writes.wrap calm (fun _ o' calm' text before => ?_) fun _ => writes after o calm opens
  exact writes none o' calm' (.afterChar text before (by decide))

theorem dot_writes {c : Char} {cs : List Char} (calm : o.Calm) (text : o.text = c :: cs) (f : String) :
    Emit.Writes (dot false >>= fun _ => Emit.text f) o ('.' :: f.toList) := by
  have number : (o.numberEnd == o.size) = false := by
    rw [calm.number, calm.size, text]
    rfl
  have same : dot false o = char '.' o := by
    have step : dot false o =
        (if o.numberEnd == o.size then (space >>= fun _ => char '.') else char '.') o := rfl
    rw [step, number]
    rfl
  have rest := Writes.charSeq calm '.' fun o' calm' _ _ => Writes.text calm' f
  unfold Writes at rest ⊢
  change (Emit.text f (dot false o).2).2.Calm ∧ (Emit.text f (dot false o).2).2.text = _
  rw [same]
  exact rest

theorem member_writes {p : Piece} {object : Term} (prints : p.Prints object) (f : Word)
    (noCall : spot.noCall = false) (calm : o.Calm) (opens : o.Opens after) :
    Emit.Writes (member f.text false p spot) o
      (Term.placedText spot.strength after (.member object f)) := by
  have bare : (Term.member object f).isWrapped spot.strength = false := by
    cases spot.strength <;> rfl
  have written : Emit.Writes (p.emit { strength := .update, noCall := spot.noCall }) o
      (object.placedText .update after) := prints rfl noCall calm opens
  unfold Term.placedText
  rw [bare]
  refine written.seq fun o' calm' text => ?_
  obtain ⟨c, cs, last⟩ := List.exists_cons_of_ne_nil (l := o'.text) (by
    rw [text]
    simp [object.placedText_ne_nil])
  exact dot_writes calm' last f.text

/-! ### Arguments -/

theorem later_writes {as : List Term}
    (prints : ∀ a ∈ as, ∀ n : Node, n.bare = a.node → n.piece.Prints a) {p : Piece} {a : Term}
    (first : p.Prints a) {ns : List Node} (same : ns.map Node.bare = as.map Term.node)
    (calm : o.Calm) (opens : o.Opens none) :
    Emit.Writes (list Piece.item (p :: Node.pieces ns)) o (a.text none ++ Term.laterText as) := by
  have item : Emit.Writes p.item o (a.text none) := first.loose (by decide) rfl rfl calm opens
  induction as generalizing ns p a o with
  | nil =>
    cases ns with
    | cons n ns => cases same
    | nil =>
      rw [Term.laterText, List.append_nil]
      exact item
  | cons b as ih =>
    cases ns with
    | nil => cases same
    | cons n ns =>
      rw [List.map_cons, List.map_cons, List.cons.injEq] at same
      have second := prints b (by simp) n same.1
      refine item.seq fun o₁ calm₁ _ => ?_
      change Emit.Writes (char ',' >>= fun _ => softSpace >>= fun _ =>
        list Piece.item (n.piece :: Node.pieces ns)) o₁ _
      refine Writes.charSeq calm₁ ',' fun o₂ calm₂ _ _ =>
        Writes.spaceSeq calm₂ fun o₃ calm₃ text before => ?_
      have opens₃ : o₃.Opens none := .afterChar text before (by decide)
      exact ih (fun c inside => prints c (by simp [inside])) second same.2 calm₃ opens₃
        (second.loose (by decide) rfl rfl calm₃ opens₃)

/-- Without comments the arguments stand on one line. -/
theorem arguments_apply (close : Nat) (args : List Piece) (calm : o.Calm) :
    arguments close args o =
      (char '(' >>= fun _ => list Piece.item args >>= fun _ => char ')') o := by
  have none : (char '(' o).2.comments = [] := calm.comments
  have step : arguments close args o =
      (if (char '(' o).2.comments.any (fun c => c.leads == some close) ||
          args.any (fun a => (char '(' o).2.comments.any fun c => c.leads == some a.start) then
        (do
          deeper
          argumentLines true args
          if !(← argumentComments close) then softNewline
          shallower
          indent
          char ')' : Emit)
      else list Piece.item args >>= fun _ => char ')') (char '(' o).2 := rfl
  have quiet : (args.any fun a => ([] : List Comment).any fun c => c.leads == some a.start) = false := by
    simp
  rw [step, none, quiet]
  rfl

theorem arguments_writes {as : List Term}
    (prints : ∀ a ∈ as, ∀ n : Node, n.bare = a.node → n.piece.Prints a) {ns : List Node}
    (same : ns.map Node.bare = as.map Term.node) (close : Nat) (calm : o.Calm) :
    Emit.Writes (arguments close (Node.pieces ns)) o ('(' :: (Term.argumentText as ++ [')'])) := by
  unfold Writes
  rw [arguments_apply close _ calm]
  refine Writes.charSeq calm '(' fun o₁ calm₁ text before => ?_
  have opens₁ : o₁.Opens none := .afterChar text before (by decide)
  have items : Emit.Writes (list Piece.item (Node.pieces ns)) o₁ (Term.argumentText as) := by
    cases as with
    | nil =>
      cases ns with
      | cons n ns => cases same
      | nil => exact ⟨calm₁, rfl⟩
    | cons a as =>
      cases ns with
      | nil => cases same
      | cons n ns =>
        rw [List.map_cons, List.map_cons, List.cons.injEq] at same
        exact later_writes (fun b inside => prints b (by simp [inside]))
          (prints a (by simp) n same.1) same.2 calm₁ opens₁
  exact items.seq fun o₂ calm₂ _ => Writes.char calm₂ ')'

/-! ### Calls -/

/-- Moving the place where a statement or a default begins writes nothing. -/
theorem moveStart_writes {e : Emit} {cs : List Char} (isDefault isStatement : Bool) (calm : o.Calm)
    (opens : o.Opens after)
    (writes : ∀ o' : Out, o'.Calm → o'.Opens after → o'.text = o.text → e.Writes o' cs) :
    Emit.Writes (moveStart isDefault isStatement >>= fun _ => e) o cs := by
  cases isDefault with
  | true =>
    exact writes { o with defaultStart := o.size } { calm with } ⟨opens.apart, opens.sign⟩ rfl
  | false =>
    cases isStatement with
    | true =>
      exact writes { o with statementStart := o.size } { calm with } ⟨opens.apart, opens.sign⟩ rfl
    | false => exact writes o calm opens rfl

theorem call_writes {f : Term} {as : List Term} {p q : Piece} (callee : p.Prints f)
    (untyped : q.plain = pure ())
    (prints : ∀ a ∈ as, ∀ n : Node, n.bare = a.node → n.piece.Prints a) {ns : List Node}
    (same : ns.map Node.bare = as.map Term.node) (span : Span) (noCall : spot.noCall = false)
    (calm : o.Calm) (opens : o.Opens after) :
    Emit.Writes (call false false span p q (Node.pieces ns) spot) o
      ((Term.call f as).placedText spot.strength after) := by
  have step : call false false span p q (Node.pieces ns) spot o =
      wrap (spot.strength.atLeast .new || spot.noCall || false)
        (moveStart (o.defaultStart == o.size) (o.statementStart == o.size) >>= fun _ =>
          p.emit (.of .update) >>= fun _ => q.plain >>= fun _ =>
            arguments (span.stop - 1) (Node.pieces ns)) o := rfl
  unfold Writes
  rw [step, untyped]
  refine wrap_writes (e := .call f as) ?_ calm opens fun a o₁ calm₁ opens₁ =>
    moveStart_writes _ _ calm₁ opens₁ fun o₂ calm₂ opens₂ text₂ => ?_
  · rw [noCall, Bool.or_false, Bool.or_false]
    rfl
  · refine Writes.seq (callee rfl rfl calm₂ opens₂) fun o₃ calm₃ _ => ?_
    exact arguments_writes prints same _ calm₃

/-! ### Operators -/

theorem spaceBeforeOperator_apply (next : OperatorMark) (before : o.operatorEnd < o.size) :
    spaceBeforeOperator next o = ((), o) := by
  have other : (o.operatorEnd == o.size) = false := beq_false_of_ne (by omega)
  unfold spaceBeforeOperator
  rw [get_bind, other]
  cases o.lastOperator <;> rfl


theorem collides_unary (last op : UnaryOp) (before : List Char) :
    collides (.unary last) (.unary op) before = (last == op && (op == .plus || op == .minus)) := by
  cases last <;> cases op <;> rfl

/-- A sign keeps apart from the same sign right before it. -/
theorem signGap_writes (op : UnaryOp) (calm : o.Calm) (opens : o.Opens after) :
    Emit.Writes (spaceBeforeOperator (.unary op)) o (Term.signGap after op) := by
  cases after with
  | none =>
    rcases opens.sign with never | before
    · have same : spaceBeforeOperator (.unary op) o = ((), o) := by
        unfold spaceBeforeOperator
        rw [get_bind, never]
        rfl
      unfold Writes
      rw [same]
      exact ⟨calm, rfl⟩
    · unfold Writes
      rw [spaceBeforeOperator_apply _ before]
      exact ⟨calm, rfl⟩
  | some last =>
    obtain ⟨latest, here⟩ := opens.sign
    have step : spaceBeforeOperator (.unary op) o =
        (if last == op && (op == .plus || op == .minus) then space else pure () : Emit) o := by
      unfold spaceBeforeOperator
      rw [get_bind]
      rw [latest, here, beq_self_eq_true]
      simp only [Bool.true_and, collides_unary]
    unfold Writes Term.signGap
    rw [step]
    by_cases same : last = op
    · subst same
      cases last <;> first
        | exact Writes.char calm ' '
        | exact ⟨calm, rfl⟩
    · have other : ¬ some last = some op := by simpa using same
      simp only [beq_false_of_ne same, Bool.false_and, other, decide_false, Bool.false_eq_true, if_false]
      exact ⟨calm, rfl⟩

theorem unary_writes (op : UnaryOp) {p : Piece} {x : Term} (prints : p.Prints x)
    (noIn : spot.noIn = false) (noCall : spot.noCall = false) (calm : o.Calm)
    (opens : o.Opens after) :
    Emit.Writes (unary op p spot) o ((Term.unary op x).placedText spot.strength after) := by
  refine wrap_writes (e := .unary op x) rfl calm opens fun a o₁ calm₁ opens₁ => ?_
  cases isWord : op.isWord with
  | true =>
    simp only [isWord, if_true, Term.text]
    refine Writes.seq (Writes.word calm₁ opens₁.apart op.text) fun o₂ calm₂ _ => ?_
    refine Writes.spaceSeq calm₂ fun o₃ calm₃ text before => ?_
    exact prints noIn noCall calm₃ (.afterChar text before (by decide))
  | false =>
    simp only [isWord, Bool.false_eq_true, if_false, Term.text]
    refine (signGap_writes op calm₁ opens₁).seq fun o₂ calm₂ _ => ?_
    refine (Writes.text calm₂ op.text).seq fun o₃ calm₃ text₃ => ?_
    -- The operator is remembered as the latest one, and it ends here.
    have opens₄ : ({ o₃ with lastOperator := some (.unary op), operatorEnd := o₃.size } : Out).Opens
        (some op) := by
      refine ⟨?_, rfl, rfl⟩
      intro c first
      simp only [text₃] at first
      cases op <;> first
        | (cases first; decide)
        | cases isWord
    have calm₄ : ({ o₃ with lastOperator := some (.unary op), operatorEnd := o₃.size } : Out).Calm :=
      { calm₃ with operator := Nat.le_refl _ }
    have operand : Emit.Writes (p.emit { spot with strength := .power })
        { o₃ with lastOperator := some (.unary op), operatorEnd := o₃.size }
        (x.placedText .power (some op)) := prints noIn noCall calm₄ opens₄
    exact operand

theorem infixed_writes {left right : Piece} {l r e : Term} {needed : Bool} {sl sr : Strength} {mark : Emit}
    {cs : List Char} (first : left.Prints l) (second : right.Prints r)
    (wrapped : needed = e.isWrapped spot.strength)
    (text : ∀ a, e.text a =
      l.placedText sl a ++ ' ' :: (cs ++ ' ' :: r.placedText sr none))
    (marks : ∀ o' : Out, o'.Calm → o'.text.head? = some ' ' → o'.operatorEnd < o'.size →
      mark.Writes o' cs)
    (noIn : spot.noIn = false) (noCall : spot.noCall = false) (calm : o.Calm) (opens : o.Opens after) :
    Emit.Writes (infixed needed left right (sl, sr) mark spot) o (e.placedText spot.strength after) := by
  unfold infixed
  simp only [noIn, Bool.false_and]
  refine wrap_writes wrapped calm opens fun a o₁ calm₁ opens₁ => ?_
  rw [text a]
  have written : Emit.Writes (left.emit { spot with strength := sl, noIn := false }) o₁
      (l.placedText sl a) := first rfl noCall calm₁ opens₁
  refine written.seq fun o₂ calm₂ _ => Writes.spaceSeq calm₂ fun o₃ calm₃ text₃ before₃ => ?_
  refine (marks o₃ calm₃ (by rw [text₃]; rfl) before₃).seq fun o₄ calm₄ _ =>
    Writes.spaceSeq calm₄ fun o₅ calm₅ text₅ before₅ => ?_
  exact second rfl rfl calm₅ (.afterChar text₅ before₅ (by decide))

/-- The mark of an operator between two operands. -/
theorem mark_writes (op : BinaryOp) (calm : o.Calm) (last : o.text.head? = some ' ')
    (before : o.operatorEnd < o.size) :
    Emit.Writes (do
      if op.isWord then word op.text
      else
        spaceBeforeOperator (.binary op)
        text op.text
        afterOperator (.binary op)) o op.text.toList := by
  cases isWord : op.isWord with
  | true =>
    simp only [if_true]
    refine Writes.word calm ?_ op.text
    intro c first
    rw [last] at first
    cases first
    decide
  | false =>
    simp only [Bool.false_eq_true, if_false]
    have step : (spaceBeforeOperator (.binary op) >>= fun _ => text op.text >>= fun _ =>
        afterOperator (.binary op)) o = (text op.text >>= fun _ => afterOperator (.binary op)) o := by
      change (text op.text >>= fun _ => afterOperator (.binary op))
        (spaceBeforeOperator (.binary op) o).2 = _
      rw [spaceBeforeOperator_apply _ before]
    unfold Writes
    rw [step]
    exact ⟨{ calm_chars calm op.text.toList with operator := Nat.le_refl _ }, rfl⟩

theorem binary_writes (op : BinaryOp) {left right : Node} {l r : Term} (tree : left.bare = l.node)
    (first : left.piece.Prints l) (second : right.piece.Prints r)
    (noIn : spot.noIn = false) (noCall : spot.noCall = false) (calm : o.Calm) (opens : o.Opens after) :
    Emit.Writes (binary op left.piece right.piece spot) o
      ((Term.binary op l r).placedText spot.strength after) := by
  have step : binary op left.piece right.piece spot = infixed
      (spot.strength.atLeast op.strength || (op == .isIn && spot.noIn)) left.piece right.piece
      (Term.leftSpot op l, Term.rightSpot op) (do
        if op.isWord then word op.text
        else
          spaceBeforeOperator (.binary op)
          text op.text
          afterOperator (.binary op)) spot := by
    unfold binary
    simp only [Node.piece_tree, Term.form_withoutParens tree]
    cases l <;> rfl
  rw [step]
  refine infixed_writes (e := .binary op l r) first second ?_ (fun a => rfl)
    (fun o' calm' last before => mark_writes op calm' last before) noIn noCall calm opens
  rw [noIn, Bool.and_false, Bool.or_false]
  rfl

theorem logical_writes (op : LogicalOp) {left right : Node} {l r : Term} (leftTree : left.bare = l.node)
    (rightTree : right.bare = r.node) (first : left.piece.Prints l) (second : right.piece.Prints r)
    (noIn : spot.noIn = false) (noCall : spot.noCall = false) (calm : o.Calm) (opens : o.Opens after) :
    Emit.Writes (logical op left.piece right.piece spot) o
      ((Term.logical op l r).placedText spot.strength after) := by
  have mixed : ∀ {n : Node} {e : Term}, n.bare = e.node → mixes n.piece = e.mixes := by
    intro n e tree
    unfold mixes
    rw [Node.piece_tree, Term.form_withoutParens tree]
    cases e <;> rfl
  have step : logical op left.piece right.piece spot = infixed (spot.strength.atLeast op.strength)
      left.piece right.piece (Term.sideSpot op l, Term.sideSpot op r) (text op.text) spot := by
    unfold logical Term.sideSpot
    simp only [mixed leftTree, mixed rightTree]
  rw [step]
  exact infixed_writes (e := .logical op l r) first second rfl (fun a => rfl)
    (fun o' calm' _ _ => Writes.text calm' op.text) noIn noCall calm opens

theorem conditional_writes {test yes no : Piece} {t y n : Term} (first : test.Prints t)
    (second : yes.Prints y) (third : no.Prints n) (noIn : spot.noIn = false) (calm : o.Calm)
    (opens : o.Opens after) :
    Emit.Writes (conditional test yes no spot) o
      ((Term.conditional t y n).placedText spot.strength after) := by
  unfold conditional
  simp only [noIn, Bool.false_and]
  refine wrap_writes (e := .conditional t y n) rfl calm opens fun a o₁ calm₁ opens₁ => ?_
  have written : Emit.Writes (test.emit { strength := .conditional, noIn := false }) o₁
      (t.placedText .conditional a) := first rfl rfl calm₁ opens₁
  refine written.seq fun o₂ calm₂ _ => Writes.spaceSeq calm₂ fun o₃ calm₃ _ _ =>
    Writes.charSeq calm₃ '?' fun o₄ calm₄ _ _ => Writes.spaceSeq calm₄ fun o₅ calm₅ text₅ before₅ => ?_
  have yes' : Emit.Writes (yes.emit (.of .yield)) o₅ (y.text none) :=
    second.loose (by decide) rfl rfl calm₅ (.afterChar text₅ before₅ (by decide))
  refine yes'.seq fun o₆ calm₆ _ => Writes.spaceSeq calm₆ fun o₇ calm₇ _ _ =>
    Writes.charSeq calm₇ ':' fun o₈ calm₈ _ _ => Writes.spaceSeq calm₈ fun o₉ calm₉ text₉ before₉ => ?_
  exact third.loose (by decide) rfl rfl calm₉ (.afterChar text₉ before₉ (by decide))

end Print

/-- Every tree of a term prints as the text of the term. -/
theorem Term.prints (e : Term) : ∀ n : Node, n.bare = e.node → n.piece.Prints e := by
  induction e using Term.induction_on with
  | name w =>
    intro n tree spot after o _ _ calm opens
    obtain ⟨spans, ds, inner, -⟩ := Node.of_bare tree (by simp)
    rw [n.emit_withoutParens, inner, placedText, isWrapped_name]
    exact Emit.Writes.word calm opens.apart w.text
  | member x f ih =>
    intro n tree spot after o _ noCall calm opens
    obtain ⟨spans, ds, inner, parts⟩ := Node.of_bare tree (by simp)
    obtain ⟨a, rfl, object⟩ := List.map_eq_singleton_iff.mp parts
    rw [n.emit_withoutParens, inner]
    exact Print.member_writes (ih a object) f noCall calm opens
  | call f as ih each =>
    intro n tree spot after o _ noCall calm opens
    obtain ⟨spans, ds, inner, parts⟩ := Node.of_bare tree (by simp)
    obtain ⟨a, b, g, rfl, callee, types, arguments⟩ := Node.three_of_bare parts
    obtain ⟨_, _, rfl, -⟩ := Node.part_of_bare types (by simp)
    obtain ⟨_, ns, rfl, same⟩ := Node.part_of_bare arguments (by simp)
    rw [n.emit_withoutParens, inner]
    rw [nodes_eq] at same
    exact Print.call_writes (ih a callee) rfl each same spans.own noCall calm opens
  | unary op x ih =>
    intro n tree spot after o noIn noCall calm opens
    obtain ⟨spans, ds, inner, parts⟩ := Node.of_bare tree (by simp)
    obtain ⟨a, rfl, operand⟩ := List.map_eq_singleton_iff.mp parts
    rw [n.emit_withoutParens, inner]
    exact Print.unary_writes op (ih a operand) noIn noCall calm opens
  | binary op l r ihl ihr =>
    intro n tree spot after o noIn noCall calm opens
    obtain ⟨spans, ds, inner, parts⟩ := Node.of_bare tree (by simp)
    obtain ⟨a, b, rfl, left, right⟩ := Node.two_of_bare parts
    rw [n.emit_withoutParens, inner]
    exact Print.binary_writes op left (ihl a left) (ihr b right) noIn noCall calm opens
  | logical op l r ihl ihr =>
    intro n tree spot after o noIn noCall calm opens
    obtain ⟨spans, ds, inner, parts⟩ := Node.of_bare tree (by simp)
    obtain ⟨a, b, rfl, left, right⟩ := Node.two_of_bare parts
    rw [n.emit_withoutParens, inner]
    exact Print.logical_writes op left right (ihl a left) (ihr b right) noIn noCall calm opens
  | conditional t y n iht ihy ihn =>
    intro m tree spot after o noIn noCall calm opens
    obtain ⟨spans, ds, inner, parts⟩ := Node.of_bare tree (by simp)
    obtain ⟨a, b, c, rfl, test, yes, no⟩ := Node.three_of_bare parts
    rw [m.emit_withoutParens, inner]
    exact Print.conditional_writes (iht a test) (ihy b yes) (ihn c no) noIn calm opens

end Splice
