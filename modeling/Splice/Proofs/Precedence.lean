import Splice.Proofs.Phrases

/-!
# Reading terms

Every term is read back from its tokens: the parentheses of `Term.toks` are enough. The rank of an
operator against the strength of its surroundings says where a part stands bare, and what follows
it there does not become a part of it.
-/
namespace Splice

variable {input : Source}

/-! ## Where operands need no parentheses -/

theorem BinaryOp.rank_below (op : BinaryOp) : op.below.rank + 1 = op.strength.rank := by
  cases op <;> rfl

theorem LogicalOp.rank_below (op : LogicalOp) : op.below.rank + 1 = op.strength.rank := by
  cases op <;> rfl

theorem Read.bindsAbove_of_lt {s above : Strength} (tight : above.rank < s.rank) :
    Read.bindsAbove s above = true := by
  unfold Read.bindsAbove
  split <;> simp only [decide_eq_true_eq] <;> omega

theorem Read.not_bindsAbove {s above : Strength} (left : s.groupsRight = false)
    (loose : s.rank ≤ above.rank) : Read.bindsAbove s above = false := by
  unfold Read.bindsAbove
  simp only [left, Bool.false_eq_true, if_false, decide_eq_false_iff_not]
  omega

theorem stops.mono {above tighter : Strength} {ts : List Tok} (stop : stops above ts)
    (le : above.rank ≤ tighter.rank) : stops tighter ts := by
  intro t first op found
  have loose := stop t first op found
  unfold Read.bindsAbove at loose ⊢
  split <;> simp_all only [if_true, if_false, decide_eq_false_iff_not, Bool.false_eq_true] <;> omega

namespace Term

/-- The operators of the term bind tighter than `above`. -/
def admits : Term → Strength → Prop
  | binary op _ _, above => Read.bindsAbove op.strength above = true
  | logical op _ _, above => Read.bindsAbove op.strength above = true
  | conditional _ _ _, _ => False
  | _, _ => True

theorem admits_of_lt {e : Term} {above : Strength} (tight : above.rank < e.level)
    (operator : Strength.conditional.rank < e.level) : e.admits above := by
  cases e with
  | binary | logical => exact Read.bindsAbove_of_lt tight
  | conditional => simp [level] at operator
  | name | member | call | unary => trivial

theorem ends_of_stops {e : Term} {above : Strength} {ts : List Tok} (stop : stops above ts)
    (tight : above.rank ≤ e.level) : e.ends ts := by
  cases e with
  | binary | logical => exact stop.mono tight
  | name | member | call | unary | conditional => trivial

/-- An operator that groups to the left ends an operand that binds no looser. -/
theorem ends_of_operator {e : Term} {t : Tok} {o : Read.Operator} {ts : List Tok}
    (operator : Read.operatorOf t.kind = some o) (left : o.strength.groupsRight = false)
    (tight : o.strength.rank ≤ e.level) : e.ends (t :: ts) := by
  have stop : ∀ own : Strength, o.strength.rank ≤ own.rank → stops own (t :: ts) := by
    intro own le u first op found
    cases first
    rw [operator] at found
    cases found
    exact Read.not_bindsAbove left le
  cases e with
  | binary | logical => exact stop _ tight
  | name | member | call | unary | conditional => trivial

theorem ends_of_question (e : Term) (ts : List Tok) : e.ends (.mark .question :: ts) := by
  have stop : ∀ own : Strength, stops own (.mark .question :: ts) := by
    intro own u first op found
    cases first
    cases found
  cases e with
  | binary | logical => exact stop _
  | name | member | call | unary | conditional => trivial

theorem leftSpot_of_ne {op : BinaryOp} (other : op ≠ .pow) (l : Term) : leftSpot op l = op.below := by
  cases op <;> first | rfl | exact absurd rfl other

theorem rightSpot_of_ne {op : BinaryOp} (other : op ≠ .pow) : rightSpot op = op.strength := by
  cases op <;> first | rfl | exact absurd rfl other

theorem groupsRight_of_ne {op : BinaryOp} (other : op ≠ .pow) : op.strength.groupsRight = false := by
  cases op <;> first | rfl | exact absurd rfl other

theorem not_wrapped {e : Term} {s : Strength} (bare : e.isWrapped s = false) : s.rank < e.level := by
  simpa [isWrapped] using bare

/-- The left operand of a power is no operator expression. -/
theorem level_of_power {l : Term} (bare : l.isWrapped (leftSpot .pow l) = false) :
    Strength.unary.rank < l.level := by
  have tight := not_wrapped bare
  cases l with
  | name | member | call => simp [level, Strength.rank]
  | unary => simp [leftSpot, isUnary, level, Strength.rank] at tight
  | conditional => simp [leftSpot, isUnary, level, Strength.rank, Print.operandStrengths,
      BinaryOp.strength, Strength.groupsRight] at tight
  | binary op =>
    cases op <;> simp [leftSpot, isUnary, level, Strength.rank, Print.operandStrengths,
      BinaryOp.strength, Strength.groupsRight] at tight
  | logical op =>
    cases op <;> simp [leftSpot, isUnary, level, Strength.rank, Print.operandStrengths,
      BinaryOp.strength, LogicalOp.strength, Strength.groupsRight] at tight

theorem admits_of_chain {e : Term} (tight : Strength.unary.rank < e.level) (above : Strength) :
    e.admits above := by
  cases e with
  | name | member | call | unary => trivial
  | binary op => cases op <;> simp [level, BinaryOp.strength, Strength.rank] at tight
  | logical op => cases op <;> simp [level, LogicalOp.strength, Strength.rank] at tight
  | conditional => simp [level, Strength.rank] at tight

theorem left_admits {op : BinaryOp} {l : Term} {above : Strength}
    (bare : l.isWrapped (leftSpot op l) = false) (enough : Read.bindsAbove op.strength above = true) :
    l.admits above := by
  by_cases pow : op = .pow
  · subst pow
    exact admits_of_chain (level_of_power bare) above
  · rw [leftSpot_of_ne pow] at bare
    have tight := not_wrapped bare
    have below := op.rank_below
    have lowest : Strength.conditional.rank < op.strength.rank := by
      cases op <;> decide
    have order : above.rank < op.strength.rank := by
      simpa [Read.bindsAbove, groupsRight_of_ne pow] using enough
    exact admits_of_lt (by omega) (by omega)

theorem left_ends {op : BinaryOp} {l : Term} (ts : List Tok)
    (bare : l.isWrapped (leftSpot op l) = false) : l.ends (op.tok :: ts) := by
  by_cases pow : op = .pow
  · subst pow
    have tight := level_of_power bare
    cases l with
    | name | member | call | unary | conditional => trivial
    | binary op => cases op <;> simp [level, BinaryOp.strength, Strength.rank] at tight
    | logical op => cases op <;> simp [level, LogicalOp.strength, Strength.rank] at tight
  · rw [leftSpot_of_ne pow] at bare
    have tight := not_wrapped bare
    have below := op.rank_below
    have operator : Read.operatorOf op.tok.kind = some (.binary op) := by
      cases op <;> rfl
    refine ends_of_operator operator (groupsRight_of_ne pow) ?_
    change op.strength.rank ≤ l.level
    omega

theorem right_admits {op : BinaryOp} {r : Term} (bare : r.isWrapped (rightSpot op) = false) :
    r.admits op.strength ∧ op.strength.rank ≤ r.level := by
  have tight := not_wrapped bare
  by_cases pow : op = .pow
  · subst pow
    change 16 < r.level at tight
    refine ⟨?_, tight⟩
    cases r with
    | name | member | call | unary => trivial
    | binary op => cases op <;> first | rfl | simp [level, BinaryOp.strength, Strength.rank] at tight
    | logical op => cases op <;> simp [level, LogicalOp.strength, Strength.rank] at tight
    | conditional => simp [level, Strength.rank] at tight
  · rw [rightSpot_of_ne pow] at tight
    have lowest : Strength.conditional.rank < op.strength.rank := by
      cases op <;> decide
    exact ⟨admits_of_lt tight (by omega), by omega⟩

/-- A bare operand of a logical operator binds at least as tightly as the operator. -/
theorem side_level {op : LogicalOp} {e : Term} (bare : e.isWrapped (sideSpot op e) = false) :
    op.strength.rank ≤ e.level := by
  have tight := not_wrapped bare
  have below := op.rank_below
  have most : op.strength.rank ≤ Strength.unary.rank := by
    cases op <;> decide
  unfold sideSpot at tight
  split at tight <;> omega

/-- A bare operand is a run of the operator itself, or binds tighter. -/
theorem side_tight {op : LogicalOp} {e : Term} (bare : e.isWrapped (sideSpot op e) = false)
    (other : ∀ a b, e ≠ logical op a b) : op.strength.rank < e.level := by
  have tight := side_level bare
  cases e with
  | name | member | call | unary =>
    cases op <;> simp [level, LogicalOp.strength, Strength.rank]
  | binary o =>
    cases op <;> cases o <;> simp [level, LogicalOp.strength, BinaryOp.strength, Strength.rank]
  | conditional => cases op <;> simp [level, LogicalOp.strength, Strength.rank] at tight
  | logical o a b =>
    cases op <;> cases o <;> first
      | exact absurd rfl (other a b)
      | simp [level, LogicalOp.strength, Strength.rank] at tight; done
      | simp [level, LogicalOp.strength, Strength.rank]

/-! ## The root of a regrouped term -/

theorem graft_logical (op : LogicalOp) (t e : Term) : ∃ a b, graft op t e = logical op a b := by
  cases e with
  | logical o a b =>
    by_cases same : o = op
    · exact ⟨graft op t a, b, by simp [graft, same]⟩
    · exact ⟨t, logical o a b, by simp [graft, same]⟩
  | name | member | call | unary | binary | conditional => exact ⟨_, _, rfl⟩

/-- What is no run of the operator is a single operand. -/
theorem graft_single {op : LogicalOp} {e : Term} (other : ∀ a b, e ≠ logical op a b) (t : Term) :
    graft op t e.regroup = logical op t e.regroup := by
  cases e with
  | logical o l r =>
    have different : o ≠ op := by
      rintro rfl
      exact other l r rfl
    obtain ⟨a, b, same⟩ := graft_logical o l.regroup r.regroup
    simp only [regroup, same, graft, different, if_false]
  | name | member | call | unary | binary | conditional => rfl

theorem mixes_of_reads {e : Term} {w : Bool} {n : Node} (reads : n.Reads e w)
    (fits : w = e.isWrapped (sideSpot .coalesce e)) : Read.mixes n = false := by
  cases w with
  | true => rw [Read.mixes, reads.form_parens]
  | false =>
    have form := Node.form_of_bare reads.tree reads.parens
    rw [Read.mixes, form]
    cases e with
    | logical op l r =>
      obtain ⟨a, b, same⟩ := graft_logical op l.regroup r.regroup
      rw [regroup, same]
      cases op with
      | coalesce => rfl
      | or | and => cases fits
    | name | member | call | unary | binary | conditional => rfl

theorem not_unary_of_reads {e : Term} {w : Bool} {n : Node} (reads : n.Reads e w)
    (fits : w = e.isWrapped (leftSpot .pow e)) (o : UnaryOp) : n.form ≠ .unary o := by
  cases w with
  | true => simp [reads.form_parens]
  | false =>
    have form := Node.form_of_bare reads.tree reads.parens
    have tight := level_of_power fits.symm
    rw [form]
    cases e with
    | unary => simp [level] at tight
    | logical op => cases op <;> simp [level, LogicalOp.strength, Strength.rank] at tight
    | name | member | call | binary | conditional => simp [regroup, Term.node, expr, Node.form]

/-! ## Every term is read as written -/

/-- The rules read the tokens of a term, in every place where the term needs no parentheses. The depth
that the rules need is bounded by the number of parts. -/
structure Readable [input : Source] (e : Term) : Prop where
  chained : ∀ {d : Nat}, 4 * e.weight ≤ d + 3 → Strength.unary.rank < e.level →
    e.ChainedBy (Read.descend d) e.toks false
  operand : ∀ {d : Nat}, 4 * e.weight ≤ d + 2 → Strength.unary.rank ≤ e.level →
    e.OperandBy (Read.descend d) e.toks false
  looped : ∀ {d : Nat} {above : Strength}, 4 * e.weight ≤ d + 2 → e.admits above →
    e.LoopedBy d above e.toks false
  grafted : ∀ {d : Nat} {op : LogicalOp} {a b : Term}, e = logical op a b → 4 * e.weight ≤ d + 2 →
    e.GraftedBy d op e.toks
  assigned : ∀ {d : Nat}, 4 * e.weight ≤ d → e.ReadBy (Read.descend d)

namespace Readable

variable {e : Term} {d : Nat}

theorem placed_chained (whole : e.Readable) {s : Strength} (tight : Strength.unary.rank ≤ s.rank)
    (enough : 4 * e.weight ≤ d) :
    e.ChainedBy (Read.descend d) (e.placed s) (e.isWrapped s) := by
  unfold placed
  cases wrapped : e.isWrapped s with
  | true => exact chained_parens e.opens (whole.assigned enough).inside
  | false =>
    have bare := not_wrapped wrapped
    have chained : e.ChainedBy (Read.descend d) e.toks false := whole.chained (by omega) (by omega)
    exact chained

/-- In parentheses every term is an operand. -/
theorem parens_operand (whole : e.Readable) (enough : 4 * e.weight + 1 ≤ d) :
    e.OperandBy (Read.descend d) (enclose true e.toks) true := by
  obtain ⟨d, rfl⟩ : ∃ m, d = m + 1 := ⟨d - 1, by omega⟩
  exact operand_of_chain (chained_parens e.opens (whole.assigned (by omega)).inside)
    ⟨_, _, rfl, .paren⟩

theorem placed_operand (whole : e.Readable) {s : Strength} (tight : Strength.power.rank ≤ s.rank)
    (enough : 4 * e.weight + 1 ≤ d) :
    e.OperandBy (Read.descend d) (e.placed s) (e.isWrapped s) := by
  unfold placed
  cases wrapped : e.isWrapped s with
  | true => exact whole.parens_operand enough
  | false =>
    have bare := not_wrapped wrapped
    have next : Strength.unary.rank = Strength.power.rank + 1 := rfl
    have operand : e.OperandBy (Read.descend d) e.toks false := whole.operand (by omega) (by omega)
    exact operand

theorem placed_looped (whole : e.Readable) {s above : Strength}
    (admitted : e.isWrapped s = false → e.admits above) (enough : 4 * e.weight + 1 ≤ d) :
    e.LoopedBy d above (e.placed s) (e.isWrapped s) := by
  unfold placed
  cases wrapped : e.isWrapped s with
  | true => exact looped_of_operand (whole.parens_operand enough) ⟨_, _, rfl, .paren⟩
  | false => exact whole.looped (by omega) (admitted wrapped)

/-- A side of a logical operator: a run of the operator goes on, anything else is one operand. -/
theorem side_grafted (whole : e.Readable) (op : LogicalOp) (enough : 4 * e.weight + 1 ≤ d) :
    e.GraftedBy d op (e.placed (sideSpot op e)) := by
  by_cases run : ∃ a b, e = logical op a b
  · obtain ⟨a, b, rfl⟩ := run
    have bare : (logical op a b).isWrapped (sideSpot op (logical op a b)) = false := by
      cases op <;> rfl
    rw [placed, bare]
    exact whole.grafted rfl (by omega)
  · have other : ∀ a b, e ≠ logical op a b := fun a b same => run ⟨a, b, same⟩
    have lowest : Strength.conditional.rank < op.strength.rank := by cases op <;> decide
    refine grafted_single (whole.placed_looped ?_ enough) ?_ ?_ (graft_single other)
    · intro bare
      have tight := side_tight bare other
      exact admits_of_lt tight (by omega)
    · intro rest stop bare
      exact ends_of_stops stop (side_level bare)
    · rintro rfl node reads
      exact mixes_of_reads reads rfl

end Readable

/-- What is read in the loop of operators is read as a whole. -/
theorem assigned_of_looped {e : Term} {d : Nat}
    (looped : ∀ {d : Nat}, 4 * e.weight ≤ d + 2 → e.LoopedBy d .comma e.toks false)
    (enough : 4 * e.weight ≤ d) : e.ReadBy (Read.descend d) := by
  have some := e.weight_pos
  obtain ⟨d, rfl⟩ : ∃ m, d = m + 2 := ⟨d - 2, by omega⟩
  exact readBy_of_looped (looped (by omega))

/-- A chain of accesses and calls is readable wherever it may stand. -/
theorem readable_of_chained {e : Term} (tight : Strength.unary.rank < e.level)
    (chained : ∀ {d : Nat}, 4 * e.weight ≤ d + 3 → e.ChainedBy (Read.descend d) e.toks false) :
    e.Readable := by
  have some := e.weight_pos
  have operand : ∀ {d : Nat}, 4 * e.weight ≤ d + 2 → e.OperandBy (Read.descend d) e.toks false := by
    intro d enough
    obtain ⟨d, rfl⟩ : ∃ m, d = m + 1 := ⟨d - 1, by omega⟩
    exact operand_of_chain (chained (by omega)) (e.opensChain tight)
  refine ⟨fun enough _ => chained enough, fun enough _ => operand enough, ?_, ?_, ?_⟩
  · intro d above enough _
    exact looped_of_operand (operand enough) e.opens
  · rintro d op a b rfl
    cases op <;> simp [level, LogicalOp.strength, Strength.rank] at tight
  · exact assigned_of_looped fun enough => looped_of_operand (operand enough) e.opens

theorem readable_unary (op : UnaryOp) {x : Term} (part : x.Readable) : (unary op x).Readable := by
  have operand : ∀ {d : Nat}, 4 * (unary op x).weight ≤ d + 2 →
      (unary op x).OperandBy (Read.descend d) (unary op x).toks false := by
    intro d enough
    rw [weight] at enough
    obtain ⟨d, rfl⟩ : ∃ m, d = m + 1 := ⟨d - 1, by omega⟩
    exact operand_unary op (part.placed_operand (s := .power) (by decide) (by omega))
  refine ⟨fun _ tight => ?_, fun enough _ => operand enough, ?_, fun same _ => ?_, ?_⟩
  · simp [level] at tight
  · intro d above enough _
    exact looped_of_operand (operand enough) (opens _)
  · cases same
  · exact assigned_of_looped fun enough => looped_of_operand (operand enough) (opens _)

theorem readable_binary (op : BinaryOp) {l r : Term} (left : l.Readable) (right : r.Readable) :
    (binary op l r).Readable := by
  have looped : ∀ {d : Nat} {above : Strength}, 4 * (binary op l r).weight ≤ d + 2 →
      (binary op l r).admits above → (binary op l r).LoopedBy d above (binary op l r).toks false := by
    intro d above enough admitted
    rw [weight] at enough
    obtain ⟨d, rfl⟩ : ∃ m, d = m + 1 := ⟨d - 1, by omega⟩
    refine looped_binary (left.placed_looped (fun bare => left_admits bare admitted) (by omega))
      (right.placed_looped (fun bare => (right_admits bare).1) (by omega)) admitted ?_ ?_ ?_
    · rintro rfl node reads o
      exact not_unary_of_reads reads rfl o
    · exact fun rest bare => left_ends rest bare
    · exact fun rest stop bare => ends_of_stops stop (right_admits bare).2
  have admitted : (binary op l r).admits .comma := by
    change Read.bindsAbove op.strength .comma = true
    cases op <;> rfl
  refine ⟨fun _ tight => ?_, fun _ tight => ?_, looped, fun same _ => ?_, ?_⟩
  · cases op <;> simp [level, BinaryOp.strength, Strength.rank] at tight
  · cases op <;> simp [level, BinaryOp.strength, Strength.rank] at tight
  · cases same
  · exact assigned_of_looped fun enough => looped enough admitted

theorem readable_logical (op : LogicalOp) {l r : Term} (left : l.Readable) (right : r.Readable) :
    (logical op l r).Readable := by
  have lowest : Strength.conditional.rank < op.strength.rank := by cases op <;> decide
  have looped : ∀ {d : Nat} {above : Strength}, 4 * (logical op l r).weight ≤ d + 2 →
      (logical op l r).admits above →
      (logical op l r).LoopedBy d above (logical op l r).toks false := by
    intro d above enough admitted
    rw [weight] at enough
    obtain ⟨d, rfl⟩ : ∃ m, d = m + 1 := ⟨d - 1, by omega⟩
    refine looped_logical (left.placed_looped ?_ (by omega)) (right.side_grafted op (by omega))
      admitted ?_ ?_
    · intro bare
      have tight := side_level bare
      have order : above.rank < op.strength.rank := by
        cases op <;> simpa [admits, Read.bindsAbove, LogicalOp.strength, Strength.groupsRight]
          using admitted
      exact admits_of_lt (by omega) (by omega)
    · rintro rfl node reads
      exact mixes_of_reads reads rfl
    · intro rest bare
      have operator : Read.operatorOf op.tok.kind = some (.logical op) := by cases op <;> rfl
      refine ends_of_operator operator ?_ (side_level bare)
      cases op <;> rfl
  have admitted : (logical op l r).admits .comma := by
    change Read.bindsAbove op.strength .comma = true
    cases op <;> rfl
  refine ⟨fun _ tight => ?_, fun _ tight => ?_, looped, ?_, ?_⟩
  · cases op <;> simp [level, LogicalOp.strength, Strength.rank] at tight
  · cases op <;> simp [level, LogicalOp.strength, Strength.rank] at tight
  · rintro d o a b same enough
    cases same
    rw [weight] at enough
    exact grafted_run (left.side_grafted op (by omega)) (right.side_grafted op (by omega))
  · exact assigned_of_looped fun enough => looped enough admitted

theorem readable_conditional {t y n : Term} (test : t.Readable) (yes : y.Readable)
    (no : n.Readable) : (conditional t y n).Readable := by
  refine ⟨fun _ tight => ?_, fun _ tight => ?_, fun _ admitted => admitted.elim, fun same _ => ?_, ?_⟩
  · simp [level, Strength.rank] at tight
  · simp [level, Strength.rank] at tight
  · cases same
  · intro d enough
    rw [weight] at enough
    obtain ⟨d, rfl⟩ : ∃ m, d = m + 2 := ⟨d - 2, by omega⟩
    refine readBy_conditional (test.placed_looped ?_ (by omega)) rfl ?_ (yes.assigned (by omega))
      (no.assigned (by omega))
    · intro bare
      have tight := not_wrapped bare
      have low : Strength.comma.rank < Strength.conditional.rank := by decide
      exact admits_of_lt (by omega) tight
    · exact fun rest _ => ends_of_question t _

/-- Every term is read as it is written. -/
theorem readable (e : Term) : e.Readable := by
  induction e using Term.induction_on with
  | name n => exact readable_of_chained (by simp [level, Strength.rank]) fun _ => chained_name n
  | member o f ih =>
    refine readable_of_chained (by simp [level, Strength.rank]) ?_
    intro d enough
    rw [weight] at enough
    exact chained_member (ih.placed_chained (s := .update) (by decide) (by omega)) f
  | call f as ih each =>
    refine readable_of_chained (by simp [level, Strength.rank]) ?_
    intro d enough
    rw [weight] at enough
    refine chained_call (ih.placed_chained (s := .update) (by decide) (by omega)) as ?_
    intro a inside
    have part := weight_le_weights inside
    have enough : 4 * a.weight ≤ d := by omega
    exact (each a inside).assigned enough
  | unary op x ih => exact readable_unary op ih
  | binary op l r left right => exact readable_binary op left right
  | logical op l r left right => exact readable_logical op left right
  | conditional t y n test yes no => exact readable_conditional test yes no

end Term

end Splice
