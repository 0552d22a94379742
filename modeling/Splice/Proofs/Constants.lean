import Mathlib
import Splice.Proofs.Names
import Splice.Proofs.Substitution

/-!
# Passes that put in constants

The keys are dotted names, and what is put in for them is a boolean, a string or a finite number. Such
a constant is not printed as a dotted name, and neither is an expression that has one among its
parts. So whatever is printed as a key after the pass was there before it, and a second pass has
nothing left to do.
-/
namespace Splice

open Emit

/-! ## The sign of a number -/

namespace Double

theorem abs_bits (x : Double) : x.abs.bits.toNat = x.bits.toNat % 2 ^ 63 := by
  rw [abs, UInt64.toNat_and]
  exact Nat.and_two_pow_sub_one_eq_mod _ 63

theorem isNegative_abs (x : Double) : x.abs.isNegative = false := by
  have zero : x.abs.bits >>> 63 = 0 := by
    apply UInt64.toNat_inj.mp
    rw [UInt64.toNat_shiftRight, abs_bits]
    change _ >>> 63 = 0
    rw [Nat.shiftRight_eq_div_pow]
    omega
  simp [isNegative, zero]

theorem exponentField_abs (x : Double) : x.abs.exponentField = x.exponentField := by
  have field : ∀ y : Double, y.exponentField = y.bits.toNat / 2 ^ 52 % 2 ^ 11 := by
    intro y
    rw [exponentField, UInt64.toNat_and, UInt64.toNat_shiftRight]
    change (_ >>> 52) &&& (2 ^ 11 - 1) = _
    rw [Nat.and_two_pow_sub_one_eq_mod, Nat.shiftRight_eq_div_pow]
  rw [field, field, abs_bits]
  omega

theorem fraction_abs (x : Double) : x.abs.fraction = x.fraction := by
  have field : ∀ y : Double, y.fraction = y.bits.toNat % 2 ^ 52 := by
    intro y
    rw [fraction, UInt64.toNat_and]
    exact Nat.and_two_pow_sub_one_eq_mod _ 52
  rw [field, field, abs_bits]
  omega

/-- Neither infinite nor no number at all. -/
def isFinite (x : Double) : Bool := !x.isNaN && !x.isInfinite

@[simp] theorem isFinite_abs (x : Double) : x.abs.isFinite = x.isFinite := by
  simp only [isFinite, isNaN, isInfinite, exponentField_abs, fraction_abs]

end Double

/-! ## Constants -/

/-- A boolean, a string or a finite number, or a variable that is not set. -/
def Resolution.isConstant : Resolution → Bool
  | .resolved (.boolean _) => true
  | .resolved (.string _) => true
  | .resolved (.number d) => d.isFinite
  | .resolved (.expression _) => false
  | .unset _ => true

/-- The expressions of constants. A negative number is a negation. -/
inductive Node.Constant : Node → Prop where
  | boolean (b : Bool) (span : Span) : Constant (.mk (.boolean b) .value span [])
  | string (s : String) (span : Span) : Constant (.mk (.string s false) .value span [])
  | number (d : Double) (span : Span) (finite : d.isFinite = true) (positive : d.isNegative = false) :
      Constant (.mk (.number d "") .value span [])
  | negative {n : Node} (span : Span) (magnitude : Constant n) :
      Constant (.mk (.unary .minus) .value span [n])

/-- A constant is built for every place. -/
theorem Replacement.exists_constant {r : Replacement}
    (constant : (Resolution.resolved r).isConstant = true) (language : Language) (span : Span) :
    ∃ e, r.build language span = some e ∧ e.Constant := by
  cases r with
  | boolean b => exact ⟨_, rfl, .boolean b span⟩
  | string s => exact ⟨_, rfl, .string s span⟩
  | expression text => cases constant
  | number d =>
    have finite : d.isFinite = true := constant
    have magnitude : Node.Constant (.mk (.number d.abs "") .value span []) :=
      .number d.abs span (by rw [d.isFinite_abs, finite]) d.isNegative_abs
    refine ⟨_, rfl, ?_⟩
    simp only [Double.isFinite, Bool.and_eq_true, Bool.not_eq_true'] at finite
    simp only [numberNode, finite.1, finite.2, Bool.false_eq_true, if_false]
    split
    · exact .negative span magnitude
    · exact magnitude

instance Emit.quoted_marks (value : String) (surrogates backticks : Bool) :
    Marks (quoted value surrogates backticks) := by
  unfold quoted
  refine @Marks.next _ _ _ _ _ fun o => ?_
  dsimp only
  generalize (if o.minify then Quoted.cheapest backticks value.toList else .double) = q
  refine Marks.chars (c := q.char) (by simp [Quoted.write]) ?_
  cases q <;> decide +kernel

namespace Node

variable {e : Node}

theorem Constant.isExpression (constant : e.Constant) : e.form.isExpression = true := by
  cases constant <;> rfl

theorem Constant.wellFormed (constant : e.Constant) : e.WellFormed := by
  induction constant with
  | negative span magnitude ih =>
    exact .intro (fun _ => rfl) trivial (List.forall_mem_singleton.mpr ih)
  | _ => exact .intro (fun _ => rfl) rfl (fun c inside => absurd inside List.not_mem_nil)

/-- A finite number is printed as its literal. -/
theorem number_written {d : Double} (finite : d.isFinite = true) (positive : d.isNegative = false)
    (place : Place) (span : Span) (spot : Spot) :
    (mk (.number d "") place span []).written spot = d.literal.toList := by
  simp only [Double.isFinite, Bool.and_eq_true, Bool.not_eq_true'] at finite
  have printed : (Form.number d "").emit span [] spot = (do spaceBeforeWord; magnitude d) := by
    have verbatim : (spot.verbatim && !"".isEmpty) = false := Bool.and_false _
    unfold Form.emit number
    simp [verbatim, finite, positive]
  rw [written, alone_mk]
  change ((Form.number d "").emit span [] spot Out.fresh).2.text.reverse = d.literal.toList
  rw [printed]
  change (magnitude d Out.fresh).2.text.reverse = d.literal.toList
  have digits : (magnitude d Out.fresh).2.text = d.literal.toList.reverse ++ [] := by
    change ((if d.literal.toList.all Char.isDigit then (modify _ : Emit) else pure ()) _).2.text = _
    split <;> rfl
  rw [digits, List.append_nil, List.reverse_reverse]

/-- A constant is not printed as a dotted name. -/
theorem Constant.not_dotted (constant : e.Constant) (spot : Spot) : ¬ Dotted (e.written spot) := by
  cases constant with
  | boolean b span =>
    cases b with
    | false => exact fun dotted : Dotted "false".toList => absurd dotted.not_reserved (by decide)
    | true => exact fun dotted : Dotted "true".toList => absurd dotted.not_reserved (by decide)
  | string s span =>
    rw [written, alone_mk]
    exact (Emit.quoted_marks s false true).not_dotted
  | number d span finite positive =>
    rw [number_written finite positive]
    simp only [Double.isFinite, Bool.and_eq_true, Bool.not_eq_true'] at finite
    exact Dotted.of_beginsNumber (Double.literal_beginsNumber finite.1 finite.2 positive)
  | negative span magnitude => exact not_dotted_of_isMarked rfl trivial

end Node

/-! ## Outcomes -/

/-- The keys are dotted names, and the values stand for constants or variables that are not set. -/
structure Pass.PutsConstants (p : Pass) : Prop where
  keys : ∀ text v, p.table.lookup text = some v → Dotted text.toList
  values : ∀ text v, p.table.lookup text = some v →
    (Replacement.resolve p.environment v).isConstant = true

namespace Pass

variable {p : Pass}

theorem walkAll_fst (p : Pass) (cs : List Node) :
    (p.walkAll cs).1 = cs.map fun c => (p.walk c).1 := by
  induction cs with
  | nil => rfl
  | cons c cs ih => simp [walkAll, ih]

/-- An expression that is no key is not matched. -/
theorem outcomeAt_of_lookup {n : Node} (absent : p.table.lookup n.render = none) :
    p.outcomeAt n = .noMatch := by
  unfold outcomeAt outcome
  rw [absent]
  split
  · split <;> rfl
  · rfl

/-- A key that is found is a dotted name. -/
theorem PutsConstants.dotted_of_found (constants : p.PutsConstants) {n : Node} {v : Value}
    (found : p.table.lookup n.render = some v) : Dotted (n.written {}) := by
  have dotted := constants.keys _ v found
  rwa [Node.render_eq, String.toList_ofList] at dotted

/-- What happens at a node: nothing, or it is a key that is kept or replaced by a constant. -/
inductive Fate (p : Pass) (n : Node) : Prop where
  | missed (outcome : p.outcomeAt n = .noMatch)
  | kept (value : n.place = .value) (outcome : p.outcomeAt n = .unresolved)
  | put (value : n.place = .value) (e : Node) (constant : e.Constant)
      (outcome : p.outcomeAt n = .replaced e)

theorem PutsConstants.fate (constants : p.PutsConstants) (n : Node) : p.Fate n := by
  cases place : n.place with
  | part => exact .missed (by simp [outcomeAt, place])
  | value =>
    have whole : p.outcomeAt n = p.outcome n := by simp [outcomeAt, place]
    unfold outcome at whole
    split at whole
    · split at whole
      next v found =>
        have constant := constants.values _ v found
        unfold outcomeOf at whole
        cases resolved : Replacement.resolve p.environment v with
        | unset name =>
          rw [resolved] at whole
          exact .kept place whole
        | resolved r =>
          obtain ⟨e, built, isConstant⟩ :=
            Replacement.exists_constant (resolved ▸ constant) p.language n.span
          rw [resolved] at whole
          simp only [built] at whole
          exact .put place e isConstant whole
      · exact .missed whole
    · exact .missed whole

/-! ## What a walk keeps -/

/-- Only the traits of properties change. -/
theorem afterParts_cases (p : Pass) (form : Form) (cs : List Node) :
    p.afterParts form cs = form ∨ ∃ t t', form = .property t ∧ p.afterParts form cs = .property t' := by
  unfold afterParts
  split
  next t =>
    split
    · exact Or.inr ⟨t, _, rfl, rfl⟩
    · exact Or.inl rfl
  · exact Or.inl rfl

theorem afterParts_of_isExpression {form : Form} (expression : form.isExpression = true)
    (cs : List Node) : p.afterParts form cs = form := by
  rcases p.afterParts_cases form cs with same | ⟨t, -, rfl, -⟩
  · exact same
  · cases expression

/-- A shorthand stays one where its value stays. -/
theorem afterParts_of_not_replaced (form : Form) {cs : List Node}
    (stay : ∀ c ∈ cs, (p.outcomeAt c).isReplaced = false) : p.afterParts form cs = form := by
  have none : (cs.drop 1).any (fun v => (p.outcomeAt v).isReplaced) = false :=
    List.any_eq_false.mpr fun c inside => by simp [stay c (List.mem_of_mem_drop inside)]
  unfold afterParts
  split
  · simp only [none, Bool.and_false, Bool.false_eq_true, if_false]
  · rfl

theorem walk_of_missed {form : Form} {place : Place} {spans : Spans} {cs : List Node}
    (missed : p.outcomeAt (.mk form place spans cs) = .noMatch) :
    p.walk (.mk form place spans cs) =
      (.mk (p.afterParts form cs) place spans (p.walkAll cs).1, (p.walkAll cs).2) := by
  rw [walk, missed]

theorem walk_of_kept {n : Node} (kept : p.outcomeAt n = .unresolved) :
    p.walk n = (n, { unresolved := 1 }) := by
  obtain ⟨form, place, spans, cs⟩ := n
  rw [walk, kept]

theorem walk_of_put {n e : Node} (put : p.outcomeAt n = .replaced e) :
    p.walk n = (e, { replaced := 1 }) := by
  obtain ⟨form, place, spans, cs⟩ := n
  rw [walk, put]

theorem not_replaced_of_walk {n : Node} (none : (p.walk n).2.replaced = 0) :
    (p.outcomeAt n).isReplaced = false := by
  cases outcome : p.outcomeAt n with
  | replaced e =>
    rw [walk_of_put outcome] at none
    cases none
  | _ => rfl

/-- Nothing is found in a list if nothing is found in its members. -/
theorem walkAll_of_stay {cs : List Node} (stay : ∀ c ∈ cs, p.walk c = (c, {})) :
    p.walkAll cs = (cs, {}) := by
  induction cs with
  | nil => rfl
  | cons c cs ih =>
    rw [walkAll, stay c List.mem_cons_self, ih fun d inside => stay d (List.mem_cons_of_mem c inside)]
    rfl

/-- Walking a list again, from walking its members again. -/
theorem walkAll_walkAll {cs : List Node}
    (again : ∀ c ∈ cs, p.walk (p.walk c).1 =
      ((p.walk c).1, { unresolved := (p.walk c).2.unresolved })) :
    p.walkAll (p.walkAll cs).1 =
      ((p.walkAll cs).1, { unresolved := (p.walkAll cs).2.unresolved }) := by
  induction cs with
  | nil => rfl
  | cons c cs ih =>
    simp only [walkAll]
    rw [again c List.mem_cons_self, ih fun d inside => again d (List.mem_cons_of_mem c inside)]
    rfl

/-- A part that is not there is left as it is. -/
theorem walk_absent {n : Node} (wellFormed : n.WellFormed) (absent : n.form = .absent) :
    p.walk n = (n, {}) := by
  obtain ⟨form, place, spans, cs⟩ := n
  obtain rfl : form = .absent := absent
  obtain ⟨value, takes, -⟩ := wellFormed
  obtain rfl : cs = [] := takes
  cases place with
  | part => rfl
  | value => cases value rfl

namespace PutsConstants

variable (constants : p.PutsConstants)

include constants

/-- Expressions stay expressions, and nothing else becomes one. -/
theorem isExpression_walk {n : Node} (wellFormed : n.WellFormed) :
    (p.walk n).1.form.isExpression = n.form.isExpression := by
  obtain ⟨form, place, spans, cs⟩ := n
  cases constants.fate (.mk form place spans cs) with
  | missed outcome =>
    rw [walk_of_missed outcome]
    rcases p.afterParts_cases form cs with same | ⟨t, t', rfl, changed⟩
    · exact congrArg Form.isExpression same
    · change (p.afterParts (.property t) cs).isExpression = false
      rw [changed]
      rfl
  | kept _ outcome => rw [walk_of_kept outcome]
  | put value e constant outcome =>
    rw [walk_of_put outcome, constant.isExpression, wellFormed.isExpression value]

/-- A part that is no expression keeps its form. -/
theorem form_walk {n : Node} (wellFormed : n.WellFormed) (other : n.form.isExpression = false)
    (plain : ∀ t, n.form ≠ .property t) : (p.walk n).1.form = n.form := by
  obtain ⟨form, place, spans, cs⟩ := n
  cases constants.fate (.mk form place spans cs) with
  | missed outcome =>
    rw [walk_of_missed outcome]
    rcases p.afterParts_cases form cs with same | ⟨t, t', rfl, -⟩
    · exact same
    · exact absurd rfl (plain t)
  | kept _ outcome => rw [walk_of_kept outcome]
  | put value e constant outcome =>
    exact absurd (wellFormed.isExpression value) (Bool.eq_false_iff.mp other)

theorem takes_walkAll {form : Form} {cs : List Node} (takes : form.Takes cs)
    (parts : ∀ c ∈ cs, c.WellFormed) : form.Takes (p.walkAll cs).1 := by
  have expression : ∀ c ∈ cs, c.form.isExpression = true →
      (p.walk c).1.form.isExpression = true := fun c inside expression =>
    (constants.isExpression_walk (parts c inside)).trans expression
  rw [walkAll_fst]
  cases form with
  | identifier w =>
    obtain ⟨undotted, rfl⟩ := takes
    exact ⟨undotted, rfl⟩
  | member w isOptional =>
    obtain ⟨c, rfl, inner⟩ := takes
    exact ⟨_, rfl, expression c List.mem_cons_self inner⟩
  | parens =>
    obtain ⟨c, rfl, inner⟩ := takes
    exact ⟨_, rfl, expression c List.mem_cons_self inner⟩
  | chain =>
    obtain ⟨c, rfl, inner⟩ := takes
    exact ⟨_, rfl, expression c List.mem_cons_self inner⟩
  | sequence =>
    intro c' inside
    obtain ⟨c, member, rfl⟩ := List.mem_map.mp inside
    exact expression c member (takes c member)
  | yield delegate =>
    obtain ⟨c, rfl⟩ := takes
    exact ⟨_, rfl⟩
  | instantiation =>
    obtain ⟨e, a, rfl, arguments⟩ := takes
    have wellFormed := parts a (by simp)
    refine ⟨_, _, rfl, ?_⟩
    rw [constants.form_walk wellFormed (by rw [arguments]; rfl) (by rw [arguments]; nofun), arguments]
  | _ => first | (obtain rfl := takes; rfl) | exact (List.length_map _).trans takes | trivial

theorem wellFormed_walk {n : Node} (wellFormed : n.WellFormed) : (p.walk n).1.WellFormed := by
  induction n using Node.induction_on with
  | step form place spans cs ih =>
    cases constants.fate (.mk form place spans cs) with
    | kept _ outcome => rwa [walk_of_kept outcome]
    | put _ e constant outcome =>
      rw [walk_of_put outcome]
      exact constant.wellFormed
    | missed outcome =>
      obtain ⟨value, takes, parts⟩ := wellFormed
      rw [walk_of_missed outcome]
      have walked := constants.takes_walkAll takes parts
      have inner : ∀ c ∈ (p.walkAll cs).1, c.WellFormed := by
        rw [walkAll_fst]
        intro c' inside
        obtain ⟨c, member, rfl⟩ := List.mem_map.mp inside
        exact ih c member (parts c member)
      rcases p.afterParts_cases form cs with same | ⟨t, t', rfl, changed⟩
      · rw [same]
        exact .intro value walked inner
      · rw [changed]
        exact .intro value trivial inner

/-! ## Nothing new is printed as a key -/

/-- What is not there after a walk was not there before it. -/
theorem walk_of_absent {n : Node} (wellFormed : n.WellFormed)
    (absent : (p.walk n).1.form = .absent) : (p.walk n).1 = n := by
  obtain ⟨form, place, spans, cs⟩ := n
  cases constants.fate (.mk form place spans cs) with
  | kept _ outcome => rw [walk_of_kept outcome]
  | put _ e constant outcome =>
    rw [walk_of_put outcome] at absent
    have expression := constant.isExpression
    rw [absent] at expression
    cases expression
  | missed outcome =>
    rw [walk_of_missed outcome] at absent
    change p.afterParts form cs = .absent at absent
    rcases p.afterParts_cases form cs with same | ⟨t, t', rfl, changed⟩
    · rw [walk_absent wellFormed (same.symm.trans absent)]
    · rw [changed] at absent
      cases absent

/-- What is printed as a dotted name after a walk was there before it. -/
theorem walk_of_dotted {n : Node} (wellFormed : n.WellFormed)
    (expression : n.form.isExpression = true) {spot : Spot} (plain : spot.verbatim = false)
    (dotted : Dotted ((p.walk n).1.written spot)) : (p.walk n).1 = n := by
  induction n using Node.induction_on generalizing spot with
  | step form place spans cs ih =>
    cases constants.fate (.mk form place spans cs) with
    | kept _ outcome => rw [walk_of_kept outcome]
    | put _ e constant outcome =>
      rw [walk_of_put outcome] at dotted
      exact absurd dotted (constant.not_dotted spot)
    | missed outcome =>
      have walked := constants.wellFormed_walk wellFormed
      obtain ⟨-, -, parts⟩ := wellFormed
      have same : p.afterParts form cs = form := afterParts_of_isExpression expression cs
      rw [walk_of_missed outcome, same] at dotted walked ⊢
      have names := Node.parts_of_dotted walked expression plain dotted
      have unchanged : (p.walkAll cs).1 = cs := by
        rw [walkAll_fst] at names ⊢
        refine (List.map_congr_left fun c inside => ?_).trans (List.map_id cs)
        rcases names _ (List.mem_map_of_mem inside) with absent | ⟨inner, spot', plain', part, -⟩
        · exact constants.walk_of_absent (parts c inside) absent
        · rw [constants.isExpression_walk (parts c inside)] at inner
          exact ih c inside (parts c inside) inner plain' part
      rw [unchanged]

/-- What a second pass matches after a walk was there before it. -/
theorem walk_of_matched {q : Pass} (second : q.PutsConstants) {n : Node} (wellFormed : n.WellFormed)
    (matched : q.outcomeAt (p.walk n).1 ≠ .noMatch) : (p.walk n).1 = n := by
  have walked := constants.wellFormed_walk wellFormed
  cases found : q.table.lookup (p.walk n).1.render with
  | none => exact absurd (outcomeAt_of_lookup found) matched
  | some v =>
    have expression : (p.walk n).1.form.isExpression = true := by
      cases place : (p.walk n).1.place with
      | part => simp [outcomeAt, place] at matched
      | value => exact walked.isExpression place
    rw [constants.isExpression_walk wellFormed] at expression
    exact constants.walk_of_dotted wellFormed expression rfl (second.dotted_of_found found)

/-! ## A second walk -/

/-- A constant is left as it is. -/
theorem walk_constant {e : Node} (constant : e.Constant) : p.walk e = (e, {}) := by
  have missed : ∀ {e : Node}, e.Constant → p.outcomeAt e = .noMatch := by
    intro e constant
    cases found : p.table.lookup e.render with
    | none => exact outcomeAt_of_lookup found
    | some v => exact absurd (constants.dotted_of_found found) (constant.not_dotted {})
  induction constant with
  | negative span magnitude ih =>
    rw [walk_of_missed (missed (.negative span magnitude)),
      walkAll_of_stay (List.forall_mem_singleton.mpr ih)]
    rfl
  | boolean b span => exact walk_of_missed (missed (.boolean b span))
  | string s span => exact walk_of_missed (missed (.string s span))
  | number d span finite positive => exact walk_of_missed (missed (.number d span finite positive))

/-- A second walk finds what the first one kept, and nothing else. -/
theorem walk_walk {n : Node} (wellFormed : n.WellFormed) :
    p.walk (p.walk n).1 = ((p.walk n).1, { unresolved := (p.walk n).2.unresolved }) := by
  induction n using Node.induction_on with
  | step form place spans cs ih =>
    cases constants.fate (.mk form place spans cs) with
    | kept _ outcome => rw [walk_of_kept outcome, walk_of_kept outcome]
    | put _ e constant outcome =>
      rw [walk_of_put outcome]
      exact constants.walk_constant constant
    | missed outcome =>
      have missed : p.outcomeAt (p.walk (.mk form place spans cs)).1 = .noMatch := by
        by_contra matched
        rw [constants.walk_of_matched constants wellFormed matched] at matched
        exact matched outcome
      obtain ⟨-, -, parts⟩ := wellFormed
      have again := fun c inside => ih c inside (parts c inside)
      have form' : p.afterParts (p.afterParts form cs) (p.walkAll cs).1 = p.afterParts form cs := by
        refine afterParts_of_not_replaced _ fun c' inside => ?_
        rw [walkAll_fst] at inside
        obtain ⟨c, member, rfl⟩ := List.mem_map.mp inside
        exact not_replaced_of_walk (by rw [again c member])
      rw [walk_of_missed outcome] at missed ⊢
      rw [walk_of_missed missed, form', walkAll_walkAll again]

end PutsConstants

end Pass

end Splice
