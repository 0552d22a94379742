import Splice.Define.Shape
import Splice.Proofs.Marks

/-!
# Expressions that are printed as dotted names

In a well-formed tree, an expression is printed as a dotted name only if it is an atom, a member
access whose object is printed as a dotted name, or a mere wrapping of an expression that is. So each
of its parts is printed as the beginning of the name, and the surroundings make no difference.
-/
namespace Splice

open Emit

/-! ## Well-formed trees -/

namespace Form

/-- Expressions without parts. -/
def isAtom : Form → Bool
  | identifier _ | thisValue | superValue | nullValue | boolean _ | number _ _ | bigint _
  | regexp _ _ | string _ _ | metaProperty _ _ => true
  | _ => false

/-- Expressions that may be printed with nothing around their first part, or with a dot after it. -/
def isOpen : Form → Bool
  | member _ _ | parens | chain | sequence | yield _ => true
  | _ => false

/-- All other expressions, which are printed with a character of no dotted name. -/
def isMarked : Form → Bool
  | template _ | tagged _ | array | object | function _ | arrow _ | classDef _ | unary _
  | update _ _ | binary _ | logical _ | privateIn | conditional | assign _ | await | call _ _
  | new _ | index _ | privateMember _ _ | importCall _ | asType | satisfies | assertion | nonNull
  | instantiation | element | fragment => true
  | _ => false

/-- The forms of expressions. -/
def isExpression (form : Form) : Bool := form.isAtom || form.isOpen || form.isMarked

/-- What a construct asks of its parts. -/
def Takes : Form → List Node → Prop
  | identifier w, cs => '.' ∉ w.toList ∧ cs = []
  | absent, cs | thisValue, cs | superValue, cs | nullValue, cs | boolean _, cs
  | number _ _, cs | bigint _, cs | regexp _ _, cs | string _ _, cs | metaProperty _ _, cs =>
    cs = []
  | member _ _, cs | parens, cs | chain, cs => ∃ c, cs = [c] ∧ c.form.isExpression = true
  | sequence, cs => ∀ c ∈ cs, c.form.isExpression = true
  | yield _, cs => ∃ c, cs = [c]
  | function _, cs => cs.length = 6
  | arrow _, cs => cs.length = 4
  | classDef _, cs => cs.length = 7
  | element, cs => cs.length = 5
  | instantiation, cs => ∃ e a, cs = [e, a] ∧ a.form = .typeArguments
  | _, _ => True

end Form

/-- Only expressions are read for their value, and every construct has the parts it asks for. -/
inductive Node.WellFormed : Node → Prop where
  | intro {form : Form} {place : Place} {spans : Spans} {cs : List Node}
      (value : place = .value → form.isExpression = true) (takes : form.Takes cs)
      (parts : ∀ c ∈ cs, c.WellFormed) : WellFormed (.mk form place spans cs)

theorem Node.WellFormed.isExpression {n : Node} (wellFormed : n.WellFormed)
    (value : n.place = .value) : n.form.isExpression = true := by
  obtain ⟨expression, -, -⟩ := wellFormed
  exact expression value

theorem Node.WellFormed.parts {n : Node} (wellFormed : n.WellFormed) :
    ∀ c ∈ n.children, c.WellFormed := by
  obtain ⟨-, -, parts⟩ := wellFormed
  exact parts

instance Node.pieces_allAppend (cs : List Node) : Piece.AllAppend (pieces cs) := by
  refine ⟨fun p member => ?_⟩
  obtain ⟨c, -, rfl⟩ := mem_pieces.mp member
  infer_instance

@[simp] theorem Node.length_pieces (cs : List Node) : (pieces cs).length = cs.length := by
  induction cs with
  | nil => rfl
  | cons c cs ih => simp [pieces, ih]

namespace Form

variable {form : Form} {cs : List Node}

theorem isOpen_of_isExpression (expression : form.isExpression = true) (atom : ¬ form.isAtom = true)
    (marked : ¬ form.isMarked = true) : form.isOpen = true := by
  simpa [isExpression, atom, marked] using expression

theorem Takes.eq_nil_of_isAtom (takes : form.Takes cs) (atom : form.isAtom = true) : cs = [] := by
  cases form <;> first | exact takes | exact takes.2 | cases atom

theorem Takes.instantiation_marks (takes : instantiation.Takes cs) (spot : Spot) :
    Marks (Print.instantiation ((Node.pieces cs).getD 0 .absent) ((Node.pieces cs).getD 1 .absent)
      spot) := by
  obtain ⟨e, ⟨form, place, spans, as⟩, rfl, rfl⟩ := takes
  have : Marks (Node.mk typeArguments place spans as).piece.plain :=
    inferInstanceAs (Marks (Print.typeArguments (Node.pieces as)))
  change Marks (Print.instantiation e.piece (Node.mk typeArguments place spans as).piece spot)
  unfold Print.instantiation
  infer_instance

theorem emit_marks (marked : form.isMarked = true) (takes : form.Takes cs) (span : Span)
    (spot : Spot) : Marks (form.emit span (Node.pieces cs) spot) := by
  cases form with
  | function t => exact Print.function_marks t ((Node.length_pieces cs).trans takes) spot
  | arrow t => exact Print.arrow_marks t ((Node.length_pieces cs).trans takes) spot
  | classDef t => exact Print.classDef_marks t ((Node.length_pieces cs).trans takes) spot
  | element => exact Print.element_marks ((Node.length_pieces cs).trans takes)
  | instantiation => exact takes.instantiation_marks spot
  | _ => first | cases marked; done | (unfold Form.emit; dsimp only; infer_instance)

end Form

/-! ## Trees printed alone -/

/-- The output before an expression is printed alone. -/
def Out.fresh : Out := { marks := false }

namespace Node

/-- The output after the tree is printed alone. -/
def alone (n : Node) (spot : Spot) : Out := (n.piece.emit spot .fresh).2

/-- The text of the tree printed alone. -/
def written (n : Node) (spot : Spot) : List Char := (n.alone spot).text.reverse

theorem render_eq (n : Node) : n.render = String.ofList (n.written {}) := rfl

theorem alone_mk (form : Form) (place : Place) (spans : Spans) (cs : List Node) (spot : Spot) :
    (mk form place spans cs).alone spot = (form.emit spans.own (pieces cs) spot .fresh).2 := by
  rw [alone, piece]
  rfl

end Node

theorem Emit.Marks.not_dotted {m : Emit} (marks : Marks m) :
    ¬ Dotted (m .fresh).2.text.reverse := by
  obtain ⟨c, inside, foreign⟩ := marks.exists_foreign .fresh rfl
  exact Dotted.of_foreign (List.mem_reverse.mpr inside) foreign

/-- Parentheses stand in no dotted name. -/
theorem Emit.not_needed_of_dotted {needed : Bool} {e : Emit} [Appends e]
    (dotted : Dotted (wrap needed e .fresh).2.text.reverse) : needed = false := by
  cases needed with
  | false => rfl
  | true => exact absurd dotted Marks.wrap_true.not_dotted

/-- The first text is the second one, or stands in it before a dot. -/
def Opens (a t : List Char) : Prop := t = a ∨ ∃ w, t = a ++ '.' :: w

theorem Opens.refl (t : List Char) : Opens t t := Or.inl rfl

theorem Opens.trans {a b t : List Char} (first : Opens a b) (second : Opens b t) : Opens a t := by
  rcases first with rfl | ⟨v, rfl⟩
  · exact second
  · rcases second with rfl | ⟨w, rfl⟩
    · exact Or.inr ⟨v, rfl⟩
    · exact Or.inr ⟨v ++ '.' :: w, by simp⟩

/-! ## The parts of a name -/

/-- After an object, a dot and a name, with a space if the dot would be taken for a part of a
number. -/
theorem Print.dot_text (w : String) (o : Out) :
    ((do dot false; text w : Emit) o).2.text.reverse =
      o.text.reverse ++ (if o.numberEnd == o.size then [' '] else []) ++ '.' :: w.toList := by
  have spaced : (dot false o).2.text =
      '.' :: ((if o.numberEnd == o.size then [' '] else []) ++ o.text) := by
    change ((if o.numberEnd == o.size then (do space; char '.') else char '.') o).2.text = _
    split <;> rfl
  change (w.toList.reverse ++ (dot false o).2.text).reverse = _
  rw [spaced]
  split <;> simp

namespace Node

variable {form : Form} {place : Place} {spans : Spans} {cs : List Node} {spot : Spot}

theorem not_dotted_of_isMarked (marked : form.isMarked = true) (takes : form.Takes cs) :
    ¬ Dotted ((mk form place spans cs).written spot) := by
  rw [written, alone_mk]
  exact (Form.emit_marks marked takes spans.own spot).not_dotted

theorem member_alone (w : String) (isOptional : Bool) (c : Node) :
    (mk (.member w isOptional) place spans [c]).alone spot =
      ((do Print.dot isOptional; text w : Emit)
        (c.alone { strength := .update, noCall := spot.noCall })).2 := by
  rw [alone_mk]
  rfl

/-- A dotted name ends with the name of the member. -/
theorem member_written {w : String} {isOptional : Bool} {c : Node}
    (dotted : Dotted ((mk (.member w isOptional) place spans [c]).written spot)) :
    isOptional = false ∧ (mk (.member w isOptional) place spans [c]).written spot =
      c.written { strength := .update, noCall := spot.noCall } ++ '.' :: w.toList := by
  cases isOptional with
  | true =>
    rw [written, alone_mk] at dotted
    have marks : Marks (Print.member w true c.piece spot) := inferInstance
    exact absurd dotted marks.not_dotted
  | false =>
    refine ⟨rfl, ?_⟩
    rw [written, member_alone, Print.dot_text] at dotted ⊢
    split at dotted
    · exact absurd dotted (Dotted.of_foreign (c := ' ') (by simp) (by decide))
    next apart => rw [if_neg apart, List.append_nil, written]

theorem chain_alone {c : Node} (bare : spot.strength.atLeast .update = false) :
    (mk .chain place spans [c]).alone spot = c.alone spot := by
  rw [alone_mk]
  change (wrap (spot.strength.atLeast .update) (c.piece.emit spot) .fresh).2 = c.alone spot
  rw [bare]
  rfl

theorem sequence_alone {c : Node} (bare : spot.strength.atLeast .comma = false) :
    (mk .sequence place spans [c]).alone spot =
      c.alone { spot with strength := .lowest, noCall := false } := by
  rw [alone_mk]
  change (wrap (spot.strength.atLeast .comma) (c.piece.emit _) .fresh).2 = _
  rw [bare]
  rfl

/-- Items are kept apart by commas. -/
theorem sequence_of_dotted (dotted : Dotted ((mk .sequence place spans cs).written spot)) :
    spot.strength.atLeast .comma = false ∧ ∃ c, cs = [c] := by
  rw [written, alone_mk] at dotted
  have bare := not_needed_of_dotted dotted
  refine ⟨bare, ?_⟩
  rcases cs with _ | ⟨c, _ | ⟨d, ds⟩⟩
  · change Dotted (wrap _ (pure ()) .fresh).2.text.reverse at dotted
    rw [bare] at dotted
    exact absurd rfl dotted.ne_nil
  · exact ⟨c, rfl⟩
  · have marks : Marks (Form.sequence.emit spans.own (pieces (c :: d :: ds)) spot) := by
      change Marks (wrap _ (do
        c.piece.emit _
        comma
        list _ (pieces (d :: ds))))
      infer_instance
    exact absurd dotted marks.not_dotted

/-- Nothing stands after the keyword. -/
theorem yield_of_dotted {delegate : Bool} {c : Node}
    (dotted : Dotted ((mk (.yield delegate) place spans [c]).written spot)) :
    spot.strength.atLeast .assign = false ∧ delegate = false ∧ c.form = .absent := by
  rw [written, alone_mk] at dotted
  have bare := not_needed_of_dotted dotted
  refine ⟨bare, ?_⟩
  change Dotted (Print.yieldExpression delegate c.piece spot .fresh).2.text.reverse at dotted
  cases delegate with
  | true =>
    have marks : Marks (Print.yieldExpression true c.piece spot) := by
      unfold Print.yieldExpression
      simp only [if_true]
      infer_instance
    exact absurd dotted marks.not_dotted
  | false =>
    cases present : c.piece.isPresent with
    | true =>
      have marks : Marks (Print.yieldExpression false c.piece spot) := by
        unfold Print.yieldExpression
        simp only [Bool.false_eq_true, if_false, present, if_true]
        infer_instance
      exact absurd dotted marks.not_dotted
    | false =>
      obtain ⟨form, place, spans, cs⟩ := c
      refine ⟨rfl, ?_⟩
      change (!isAbsent _) = false at present
      unfold isAbsent at present
      split at present
      · assumption
      · cases present

/-- A part of an expression that is printed as the dotted name `t`: it is printed as the beginning
of the name, or not there at all. -/
def OpensName (c : Node) (t : List Char) : Prop :=
  c.form = .absent ∨ c.form.isExpression = true ∧
    ∃ spot : Spot, spot.verbatim = false ∧ Dotted (c.written spot) ∧ Opens (c.written spot) t

theorem parts_of_dotted (wellFormed : WellFormed (mk form place spans cs))
    (expression : form.isExpression = true) (plain : spot.verbatim = false)
    (dotted : Dotted ((mk form place spans cs).written spot)) :
    ∀ c ∈ cs, c.OpensName ((mk form place spans cs).written spot) := by
  obtain ⟨-, takes, -⟩ := wellFormed
  have run : Dotted (form.emit spans.own (pieces cs) spot .fresh).2.text.reverse := by
    rwa [written, alone_mk] at dotted
  by_cases atom : form.isAtom = true
  · rw [takes.eq_nil_of_isAtom atom]
    exact fun c inside => absurd inside List.not_mem_nil
  by_cases marked : form.isMarked = true
  · exact absurd dotted (not_dotted_of_isMarked marked takes)
  have isOpen := Form.isOpen_of_isExpression expression atom marked
  cases form with
  | member w isOptional =>
    obtain ⟨c, rfl, inner⟩ := takes
    obtain ⟨rfl, text⟩ := member_written dotted
    refine List.forall_mem_singleton.mpr (Or.inr ⟨inner, _, rfl, ?_, Or.inr ⟨w.toList, text⟩⟩)
    exact (text ▸ dotted).of_append
  | parens =>
    obtain ⟨c, rfl, inner⟩ := takes
    exact List.forall_mem_singleton.mpr (Or.inr ⟨inner, spot, plain, dotted, .refl _⟩)
  | chain =>
    obtain ⟨c, rfl, inner⟩ := takes
    have same : (mk .chain place spans [c]).written spot = c.written spot :=
      congrArg (·.text.reverse) (chain_alone (not_needed_of_dotted (e := c.piece.emit spot) run))
    exact List.forall_mem_singleton.mpr (Or.inr ⟨inner, spot, plain, same ▸ dotted, Or.inl same⟩)
  | sequence =>
    obtain ⟨bare, c, rfl⟩ := sequence_of_dotted dotted
    have same : (mk .sequence place spans [c]).written spot =
        c.written { spot with strength := .lowest, noCall := false } :=
      congrArg (·.text.reverse) (sequence_alone bare)
    have inner := takes c List.mem_cons_self
    exact List.forall_mem_singleton.mpr
      (Or.inr ⟨inner, { spot with strength := .lowest, noCall := false }, plain, same ▸ dotted,
        Or.inl same⟩)
  | yield delegate =>
    obtain ⟨c, rfl⟩ := takes
    exact List.forall_mem_singleton.mpr (Or.inl (yield_of_dotted dotted).2.2)
  | _ => cases isOpen

end Node

/-! ## Surroundings -/

/-- What surrounds the first spot binds no tighter than what surrounds the second. -/
def Spot.Looser (a b : Spot) : Prop := a.strength.rank ≤ b.strength.rank

theorem Spot.Looser.atLeast {a b : Spot} (looser : a.Looser b) {s : Strength}
    (bare : b.strength.atLeast s = false) : a.strength.atLeast s = false := by
  simp only [Strength.atLeast, decide_eq_false_iff_not, Nat.not_le] at bare ⊢
  exact Nat.lt_of_le_of_lt looser bare

namespace Emit

theorem number_marks {d : Double} (isNumber : d.isNaN = false) (negative : d.isNegative = true)
    (spot : Spot) : Marks (number d spot) := by
  have := Marks.text (s := "(-") '(' (by decide)
  unfold number
  simp only [isNumber, negative, Bool.false_eq_true, if_false, Bool.not_true, if_true]
  infer_instance

/-- Only negative numbers mind what surrounds them. -/
theorem number_fresh {d : Double} (spot : Spot)
    (dotted : Dotted (number d spot .fresh).2.text.reverse) (spot' : Spot) :
    number d spot' .fresh = number d spot .fresh := by
  cases nan : d.isNaN with
  | true =>
    unfold number
    simp only [nan, if_true]
  | false =>
    cases negative : d.isNegative with
    | true => exact absurd dotted (number_marks nan negative spot).not_dotted
    | false =>
      unfold number
      simp only [nan, negative, Bool.false_eq_true, if_false, Bool.false_and, Bool.or_false]
      split <;> rfl

theorem atom_fresh {form : Form} (atom : form.isAtom = true) {spot spot' : Spot}
    (plain : spot.verbatim = false) (plain' : spot'.verbatim = false) {span : Span}
    {parts : List Piece} (dotted : Dotted (form.emit span parts spot .fresh).2.text.reverse) :
    form.emit span parts spot' .fresh = form.emit span parts spot .fresh := by
  cases form with
  | number d w =>
    have bare : ∀ {spot : Spot}, spot.verbatim = false →
        (Form.number d w).emit span parts spot = number d spot := by
      intro spot plain
      unfold Form.emit
      simp [plain]
    rw [bare plain] at dotted
    rw [bare plain, bare plain']
    exact number_fresh spot dotted spot'
  | _ => first | (cases atom; done) | rfl

end Emit

namespace Node

/-- An expression that is printed as a dotted name is printed in the same way wherever it stands
looser. -/
theorem alone_eq_of_looser {n : Node} (wellFormed : n.WellFormed)
    (expression : n.form.isExpression = true) {spot : Spot} (plain : spot.verbatim = false)
    (dotted : Dotted (n.written spot)) {spot' : Spot} (looser : spot'.Looser spot)
    (plain' : spot'.verbatim = false) : n.alone spot' = n.alone spot := by
  induction n using Node.induction_on generalizing spot spot' with
  | step form place spans cs ih =>
    have whole := dotted
    obtain ⟨-, takes, parts⟩ := wellFormed
    rw [written, alone_mk] at dotted
    by_cases marked : form.isMarked = true
    · exact absurd whole (not_dotted_of_isMarked marked takes)
    by_cases atom : form.isAtom = true
    · rw [alone_mk, alone_mk, Emit.atom_fresh atom plain plain' dotted]
    have isOpen := Form.isOpen_of_isExpression expression atom marked
    cases form with
    | member w isOptional =>
      obtain ⟨c, rfl, inner⟩ := takes
      obtain ⟨rfl, text⟩ := member_written whole
      have object : Dotted (c.written { strength := .update, noCall := spot.noCall }) :=
        (text ▸ whole).of_append
      have same : c.alone { strength := .update, noCall := spot'.noCall } =
          c.alone { strength := .update, noCall := spot.noCall } :=
        ih c List.mem_cons_self (parts c List.mem_cons_self) inner rfl object (Nat.le_refl _) rfl
      rw [member_alone, member_alone, same]
    | parens =>
      obtain ⟨c, rfl, inner⟩ := takes
      exact ih c List.mem_cons_self (parts c List.mem_cons_self) inner plain whole looser plain'
    | chain =>
      obtain ⟨c, rfl, inner⟩ := takes
      have bare := not_needed_of_dotted (e := c.piece.emit spot) dotted
      have same : (mk .chain place spans [c]).alone spot = c.alone spot := chain_alone bare
      rw [same, chain_alone (looser.atLeast bare)]
      exact ih c List.mem_cons_self (parts c List.mem_cons_self) inner plain
        (by rwa [written, same] at whole) looser plain'
    | sequence =>
      obtain ⟨bare, c, rfl⟩ := sequence_of_dotted whole
      rw [sequence_alone bare, sequence_alone (looser.atLeast bare)]
      rw [written, sequence_alone bare] at whole
      have inside : ∀ {spot : Spot}, spot.verbatim = false →
          ({ spot with strength := .lowest, noCall := false } : Spot).verbatim = false := id
      exact ih c List.mem_cons_self (parts c List.mem_cons_self) (takes c List.mem_cons_self)
        (inside plain) whole (Nat.le_refl _) (inside plain')
    | yield delegate =>
      obtain ⟨c, rfl⟩ := takes
      obtain ⟨bare, -, -⟩ := yield_of_dotted whole
      rw [alone_mk, alone_mk]
      change (wrap (spot'.strength.atLeast .assign) _ .fresh).2 =
        (wrap (spot.strength.atLeast .assign) _ .fresh).2
      rw [bare, looser.atLeast bare]
    | _ => cases isOpen

/-- The printed form of an expression that is printed as a dotted name anywhere. -/
theorem render_of_dotted {n : Node} (wellFormed : n.WellFormed)
    (expression : n.form.isExpression = true) {spot : Spot} (plain : spot.verbatim = false)
    (dotted : Dotted (n.written spot)) : n.render.toList = n.written spot := by
  have same : n.alone {} = n.alone spot :=
    alone_eq_of_looser wellFormed expression plain dotted (Nat.zero_le _) rfl
  rw [render_eq, String.toList_ofList, written, same, written]

/-! ## Shapes -/

theorem identifier_written (w : String) (place : Place) (spans : Spans) (spot : Spot) :
    (mk (.identifier w) place spans []).written spot = w.toList := by
  rw [written, alone_mk]
  change (w.toList.reverse ++ []).reverse = w.toList
  simp

/-- Identifiers are printed as names without a dot, member accesses as names with one. -/
theorem dot_iff_of_shape {n : Node} (wellFormed : n.WellFormed) {spot : Spot}
    (dotted : Dotted (n.written spot)) :
    (n.shape = .identifier → '.' ∉ n.written spot) ∧ (n.shape = .member → '.' ∈ n.written spot) := by
  induction n using Node.induction_on with
  | step form place spans cs ih =>
    obtain ⟨-, takes, parts⟩ := wellFormed
    cases form with
    | identifier w =>
      obtain ⟨undotted, rfl⟩ := takes
      rw [identifier_written]
      exact ⟨fun _ => undotted, nofun⟩
    | member w isOptional =>
      obtain ⟨c, rfl, -⟩ := takes
      obtain ⟨-, text⟩ := member_written dotted
      exact ⟨nofun, fun _ => by simp [text]⟩
    | parens =>
      obtain ⟨c, rfl, -⟩ := takes
      exact ih c List.mem_cons_self (parts c List.mem_cons_self) dotted
    | index isOptional => exact absurd dotted (not_dotted_of_isMarked rfl takes)
    | privateMember w isOptional => exact absurd dotted (not_dotted_of_isMarked rfl takes)
    | _ => exact ⟨nofun, nofun⟩

end Node

end Splice
