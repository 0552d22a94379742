import Mathlib
import Splice.Proofs.Reading
import Splice.Proofs.Skipping

/-!
# What follows an operand

After an operand has been read, the rules for accesses, calls, operators, assignments and
conditionals either leave it and the state as they are, or make a larger expression of it. So a
result that is a mere literal, or a mere pair of parentheses, was there before them.
-/
namespace Splice

variable {input : Source}

/-- A string, or a template without substitutions. -/
def Form.isText : Form → Bool
  | .string _ _ => true
  | .template [_] => true
  | _ => false

/-- The form is neither a text, nor parentheses, nor a name. -/
def Form.isLarger : Form → Bool
  | .parens => false
  | .identifier _ => false
  | f => !f.isText

namespace Read

variable {α β : Type} {s t u : ReadState input}

/-! ## Inverting runs -/

theorem lookahead_inv {r : Read α} {default a : α} (read : lookahead default r s = .ok a t) :
    ∃ u, t = restore s u := by
  unfold lookahead at read
  split at read <;>
  · cases read
    exact ⟨_, rfl⟩

theorem attemptSome_none {r : Read (Option α)} (read : attemptSome r s = .ok none t) :
    ∃ u, t = restore s u := by
  unfold attemptSome at read
  split at read <;> cases read
  · exact ⟨_, rfl⟩
  · exact ⟨_, rfl⟩

theorem within_inv {f : Context → Context} {r : Read α} {a : α} (read : within f r s = .ok a t) :
    ∃ u, r { s with context := f s.context } = .ok a u ∧ t = { u with context := s.context } := by
  unfold within at read
  simp only [context_bind, modify_bind] at read
  obtain ⟨b, u, inner, last⟩ := bind_inv read
  cases last
  exact ⟨u, inner, rfl⟩

theorem unexpected_inv {a : α} (read : unexpected s = .ok a t) : False := by
  unfold unexpected at read
  simp only [get_bind] at read
  cases kind : s.token.kind with
  | broken | eof =>
    simp only [kind] at read
    cases found : s.tokenProblems with
    | nil =>
      rw [found] at read
      cases read
    | cons p ps =>
      rw [found] at read
      cases read
  | _ =>
    rw [kind] at read
    cases read

/-- A mark that is there is moved over. -/
theorem bump_mark {p : Punct} (here : s.token.kind = .punct p) : bump s = .ok () (advance s) := by
  unfold bump
  simp only [token_bind, here]
  rfl

theorem eat_inv {p : Punct} {ate : Bool} (read : eat p s = .ok ate t) :
    (ate = true ∧ s.token.kind = .punct p ∧ t = advance s) ∨ (ate = false ∧ t = s) := by
  by_cases here : s.token.kind = .punct p
  · unfold eat at read
    simp only [isAt_bind, here, beq_self_eq_true, if_true] at read
    rw [bind_ok (bump_mark here)] at read
    obtain ⟨rfl, rfl⟩ := pure_inv read
    exact .inl ⟨rfl, here, rfl⟩
  · rw [eat_other (beq_false_of_ne here)] at read
    cases read
    exact .inr ⟨rfl, rfl⟩

/-! ## Staying -/

/-- A mark that begins with a closing angle bracket. -/
def isAngle : TokenKind → Bool
  | .punct .gt | .punct .gtEq | .punct .shr | .punct .shrEq | .punct .ushr | .punct .ushrEq => true
  | _ => false

/-- Nothing has been taken, and no fault has been found. Only an angle bracket may have been joined
with the marks after it. -/
structure Stays (s t : ReadState input) : Prop where
  problems : t.problems = s.problems
  place : t.token = s.token ∧ t.rest = s.rest ∧ t.tokenProblems = s.tokenProblems ∨
    isAngle s.token.kind = true ∧ isAngle t.token.kind = true

theorem Stays.refl (s : ReadState input) : Stays s s := ⟨rfl, .inl ⟨rfl, rfl, rfl⟩⟩

theorem Stays.trans (first : Stays s t) (second : Stays t u) : Stays s u := by
  refine ⟨second.problems.trans first.problems, ?_⟩
  rcases first.place with ⟨token, rest, tokenProblems⟩ | ⟨angle, angle'⟩
  · rcases second.place with ⟨token', rest', tokenProblems'⟩ | ⟨angle, angle'⟩
    · exact .inl ⟨token'.trans token, rest'.trans rest, tokenProblems'.trans tokenProblems⟩
    · exact .inr ⟨token ▸ angle, angle'⟩
  · rcases second.place with ⟨token', -, -⟩ | ⟨-, angle''⟩
    · exact .inr ⟨angle, token'.symm ▸ angle'⟩
    · exact .inr ⟨angle, angle''⟩

theorem Stays.restore (s u : ReadState input) : Stays s (restore s u) := ⟨rfl, .inl ⟨rfl, rfl, rfl⟩⟩

/-- Where no angle bracket is, the reader is where it was. -/
theorem Stays.same (stays : Stays s t) (other : isAngle t.token.kind = false) :
    t.token = s.token ∧ t.rest = s.rest ∧ t.tokenProblems = s.tokenProblems := by
  rcases stays.place with same | ⟨-, angle⟩
  · exact same
  · cases other.symm.trans angle

theorem Stays.joined (s : ReadState input) : Stays s (joined s) := by
  unfold Read.joined
  split
  next mark =>
    refine ⟨rfl, .inr ⟨by rw [mark]; rfl, ?_⟩⟩
    unfold joinAngle
    dsimp only
    split <;> rfl
  next => exact .refl s

/-- A reader that starts with `a` keeps it and stays, or ends with something good. -/
def Extends (good : α → Prop) (a : α) (s : ReadState input) (b : α) (t : ReadState input) : Prop :=
  b = a ∧ Stays s t ∨ good b

namespace Extends

variable {good : α → Prop} {a b c : α}

theorem refl (a : α) (s : ReadState input) : Extends good a s a s := .inl ⟨rfl, .refl s⟩

theorem trans (first : Extends good a s b t) (second : Extends good b t c u) :
    Extends good a s c u := by
  rcases second with ⟨rfl, stays⟩ | larger
  · rcases first with ⟨rfl, stays'⟩ | larger
    · exact .inl ⟨rfl, stays'.trans stays⟩
    · exact .inr larger
  · exact .inr larger

end Extends

/-- What a step of a loop ends or goes on with. -/
def Step.get : Step α → α
  | more a | done a => a

/-- A loop ends with a step that ends it. -/
theorem repeatFor_ends {P Q : α → Prop} {step : α → Read (Step α)}
    (each : ∀ a s r t, P a → step a s = .ok r t →
      (∃ b, r = .more b ∧ P b) ∨ ∃ b, r = .done b ∧ Q b) (n : Nat) {a b : α} (holds : P a)
    (read : repeatFor step n a s = .ok b t) : Q b := by
  induction n generalizing a s with
  | zero => cases read
  | succ n ih =>
    rw [repeatFor] at read
    obtain ⟨r, u, first, rest⟩ := bind_inv read
    rcases each _ _ _ _ holds first with ⟨c, rfl, more⟩ | ⟨c, rfl, done⟩
    · exact ih more rest
    · obtain ⟨rfl, rfl⟩ := pure_inv rest
      exact done

/-- Each round of a loop keeps what it has, or ends with something good; `P` is what the rounds may
count on. -/
theorem repeatFor_extends {P good : α → Prop} {step : α → Read (Step α)}
    (each : ∀ a s r t, P a → step a s = .ok r t →
      Extends good a s r.get t ∧ ∀ b, r = .more b → P b) (n : Nat) {a b : α} (holds : P a)
    (read : repeatFor step n a s = .ok b t) : Extends good a s b t := by
  induction n generalizing a s with
  | zero => cases read
  | succ n ih =>
    rw [repeatFor] at read
    obtain ⟨r, u, first, rest⟩ := bind_inv read
    obtain ⟨next, again⟩ := each _ _ _ _ holds first
    cases r with
    | done c =>
      obtain ⟨rfl, rfl⟩ := pure_inv rest
      exact next
    | more c => exact next.trans (ih (again c rfl) rest)

theorem iterate_extends {good : α → Prop} {step : α → Read (Step α)}
    (each : ∀ a s r t, step a s = .ok r t → Extends good a s r.get t) {a b : α}
    (read : iterate a step s = .ok b t) : Extends good a s b t :=
  repeatFor_extends (P := fun _ => True)
    (fun a s r t _ round => ⟨each a s r t round, fun _ _ => trivial⟩)
    _ trivial read

/-! ## Accesses -/

section Chains

variable {go : Descend} {start : Nat} {n m : Node} {inChain inDecorator : Bool}

theorem value_larger {form : Form} {cs : List Node} {pieces : List Span}
    (larger : form.isLarger = true) (read : value form start cs pieces s = .ok n t) : n.form.isLarger = true := by
  cases read
  exact larger

theorem memberName_larger (read : memberName start n inChain s = .ok m t) :
    m.form.isLarger = true := by
  unfold memberName at read
  cases kind : s.token.kind with
  | privateName w =>
    simp only [token_bind, kind] at read
    obtain ⟨-, u, -, last⟩ := bind_inv read
    exact value_larger rfl last
  | _ =>
    simp only [token_bind, kind] at read
    obtain ⟨w, u, -, last⟩ := bind_inv read
    exact value_larger rfl last

theorem memberIndex_larger (read : memberIndex go start n inChain s = .ok m t) :
    m.form.isLarger = true := by
  unfold memberIndex at read
  obtain ⟨-, u, -, read⟩ := bind_inv read
  obtain ⟨i, v, -, read⟩ := bind_inv read
  obtain ⟨-, w, -, last⟩ := bind_inv read
  exact value_larger rfl last

theorem taggedTemplate_larger (read : taggedTemplate go start n inChain s = .ok m t) :
    m.form.isLarger = true := by
  unfold taggedTemplate at read
  obtain ⟨⟨⟨qs, es⟩, whole⟩, u, -, read⟩ := bind_inv read
  dsimp only at read
  cases inChain with
  | true =>
    obtain ⟨-, v, -, last⟩ := bind_inv read
    exact value_larger rfl last
  | false => exact value_larger rfl read

/-- Without an access the reader stays; with one there is a larger expression. -/
def Accesses (s : ReadState input) (o : Option (Node × Bool)) (t : ReadState input) : Prop :=
  o = none ∧ Stays s t ∨ ∃ m c, o = some (m, c) ∧ m.form.isLarger = true

theorem Accesses.of_stays {o : Option (Node × Bool)} (stays : Stays s u)
    (read : (pure none : Read (Option (Node × Bool))) u = .ok o t) : Accesses s o t := by
  obtain ⟨rfl, rfl⟩ := pure_inv read
  exact .inl ⟨rfl, stays⟩

theorem Accesses.of_larger {o : Option (Node × Bool)} {r : Read Node} {c : Bool}
    (larger : ∀ m v, r u = .ok m v → m.form.isLarger = true)
    (read : (r >>= fun m => pure (some (m, c))) u = .ok o t) : Accesses s o t := by
  obtain ⟨m, v, first, last⟩ := bind_inv read
  obtain ⟨rfl, rfl⟩ := pure_inv last
  exact .inr ⟨m, c, rfl, larger m _ first⟩

theorem memberStep_extends {o : Option (Node × Bool)}
    (read : memberStep go start n inChain s = .ok o t) : Accesses s o t := by
  unfold memberStep at read
  cases kind : s.token.kind with
  | punct p =>
    cases p with
    | dot =>
      simp only [token_bind, context_bind, kind] at read
      obtain ⟨-, u, -, read⟩ := bind_inv read
      exact .of_larger (fun _ _ => memberName_larger) read
    | questionDot =>
      simp only [token_bind, context_bind, kind] at read
      obtain ⟨next, u, first, read⟩ := bind_inv read
      obtain ⟨v, rfl⟩ := lookahead_inv first
      cases ahead : next.kind with
      | punct p =>
        cases p with
        | lbracket =>
          simp only [ahead] at read
          split at read
          · exact .of_stays (.restore _ _) read
          · obtain ⟨-, u, -, read⟩ := bind_inv read
            exact .of_larger (fun _ _ => memberIndex_larger) read
        | _ =>
          simp only [ahead] at read
          exact .of_stays (.restore _ _) read
      | privateName w | word w =>
        simp only [ahead] at read
        obtain ⟨-, u, -, read⟩ := bind_inv read
        exact .of_larger (fun _ _ => memberName_larger) read
      | _ =>
        simp only [ahead] at read
        exact .of_stays (.restore _ _) read
    | lbracket =>
      simp only [token_bind, context_bind, kind] at read
      split at read
      · exact .of_stays (.refl _) read
      · exact .of_larger (fun _ _ => memberIndex_larger) read
    | bang =>
      simp only [token_bind, context_bind, kind, isTyped_bind] at read
      split at read
      · exact .of_stays (.refl _) read
      · obtain ⟨-, u, -, read⟩ := bind_inv read
        exact .of_larger (fun _ _ => value_larger rfl) read
    | lt | shl | shlEq =>
      simp only [token_bind, context_bind, kind, isTyped_bind] at read
      split at read
      · exact .of_stays (.refl _) read
      · obtain ⟨args, u, first, read⟩ := bind_inv read
        cases args with
        | some args => exact .of_larger (fun _ _ => value_larger rfl) read
        | none =>
          obtain ⟨v, rfl⟩ := attemptSome_none first
          exact .of_stays (.restore _ _) read
    | _ =>
      simp only [token_bind, context_bind, kind] at read
      exact .of_stays (.refl _) read
  | template part q =>
    cases part with
    | whole | head =>
      simp only [token_bind, context_bind, kind] at read
      exact .of_larger (fun _ _ => taggedTemplate_larger) read
    | middle | tail =>
      simp only [token_bind, context_bind, kind] at read
      exact .of_stays (.refl _) read
  | _ =>
    simp only [token_bind, context_bind, kind] at read
    exact .of_stays (.refl _) read

/-- Nodes with a flag, as the loops over accesses and calls carry them. -/
abbrev LargerChain (r : Node × Bool) : Prop := r.1.form.isLarger = true

theorem memberRound_extends {a : Node × Bool} {r : Step (Node × Bool)}
    (read : memberRound go start a s = .ok r t) : Extends LargerChain a s r.get t := by
  unfold memberRound at read
  obtain ⟨o, u, first, last⟩ := bind_inv read
  rcases memberStep_extends first with ⟨rfl, stays⟩ | ⟨m, c, rfl, larger⟩
  · obtain ⟨rfl, rfl⟩ := pure_inv last
    exact .inl ⟨rfl, stays⟩
  · obtain ⟨rfl, rfl⟩ := pure_inv last
    exact .inr larger

theorem callStep_extends {a : Node × Bool} {r : Step (Node × Bool)}
    (read : callStep go start a s = .ok r t) : Extends LargerChain a s r.get t := by
  obtain ⟨n, inChain⟩ := a
  have call {s t : ReadState input} {isOptional c : Bool} {callee : Node × Option Node}
      (read : (do
        let args ← arguments go
        let m ← value (.call isOptional false) start [callee.1, callee.2.getD .absent, args]
        pure (Step.more (m, c))) s = .ok r t) : LargerChain r.get := by
    obtain ⟨args, u, -, read⟩ := bind_inv read
    obtain ⟨m, v, first, last⟩ := bind_inv read
    obtain ⟨rfl, rfl⟩ := pure_inv last
    exact value_larger rfl first
  unfold callStep at read
  obtain ⟨isOptional, u, ate, read⟩ := bind_inv read
  simp only [isTyped_bind, isAt_bind] at read
  split at read
  next typed =>
    obtain ⟨targs, v, -, read⟩ := bind_inv read
    simp only [isAt_bind] at read
    obtain rfl : isOptional = true := by
      simp only [Bool.and_eq_true] at typed
      exact typed.1.1
    split at read
    · exact .inr (call read)
    · exact (unexpected_inv read).elim
  next =>
    simp only [pure_bind_apply, isAt_bind] at read
    split at read
    · exact .inr (call read)
    · split at read
      · exact (unexpected_inv read).elim
      next plain =>
        obtain ⟨rfl, rfl⟩ := pure_inv read
        rcases eat_inv ate with ⟨rfl, -⟩ | ⟨-, rfl⟩
        · exact absurd rfl plain
        · exact .inl ⟨rfl, .refl _⟩

theorem callRound_extends {a : Node × Bool} {r : Step (Node × Bool)}
    (read : callRound go start a s = .ok r t) : Extends LargerChain a s r.get t := by
  obtain ⟨b, u, accesses, call⟩ := bind_inv read
  exact (iterate_extends (fun _ _ _ _ => memberRound_extends) accesses).trans (callStep_extends call)

theorem callRest_extends {r : Node × Bool} (read : callRest go start n inChain s = .ok r t) :
    Extends LargerChain (n, inChain) s r t :=
  iterate_extends (fun _ _ _ _ => callRound_extends) read

/-- An optional chain is larger than a text or parentheses. -/
theorem asChain_larger (larger : n.form.isLarger = true) : (asChain n).form.isLarger = true := by
  unfold asChain
  extract_lets wrap chained
  have inner {m : Node} (larger : m.form.isLarger = true) : (chained m).form.isLarger = true := by
    unfold chained
    split <;> first | rfl | exact larger
  split
  next e args form _ =>
    rw [form] at larger
    obtain ⟨form', place, spans, cs⟩ := n
    exact form ▸ larger
  · exact inner larger

/-- The operand that a call, an access or anything that binds tighter begins with. -/
theorem leftHandSide_extends (read : leftHandSide go s = .ok m t) :
    ∃ n u, primary go s = .ok n u ∧ Extends (fun m => m.form.isLarger = true) n u m t := by
  unfold leftHandSide at read
  simp only [start_bind] at read
  obtain ⟨n, u, first, read⟩ := bind_inv read
  obtain ⟨⟨m', inChain⟩, v, rest, last⟩ := bind_inv read
  obtain ⟨rfl, rfl⟩ := pure_inv last
  refine ⟨n, u, first, ?_⟩
  rcases callRest_extends rest with ⟨same, stays⟩ | larger
  · obtain ⟨rfl, rfl⟩ := Prod.mk.inj same
    exact .inl ⟨rfl, stays⟩
  · refine .inr ?_
    cases inChain with
    | true => exact asChain_larger larger
    | false => exact larger

end Chains

/-! ## Operators -/

section Operators

variable {go : Descend} {n m : Node}

/-- A larger expression. -/
abbrev Larger (n : Node) : Prop := n.form.isLarger = true

@[simp] theorem joinMark_bind (s : ReadState input) (f : Unit → Read β) :
    (joinMark >>= f) s = f () (joined s) := rfl

theorem binaryRound_extends {start : Nat} {above : Strength} {r : Step Node}
    (read : binaryRound go start above n s = .ok r t) : Extends Larger n s r.get t := by
  have more {form : Form} {cs : List Node} {s : ReadState input} (larger : form.isLarger = true)
      (read : (value form start cs >>= fun m => pure (Step.more m)) s = .ok r t) : Larger r.get := by
    obtain ⟨m, u, first, last⟩ := bind_inv read
    obtain ⟨rfl, rfl⟩ := pure_inv last
    exact value_larger larger first
  have done (read : (pure (Step.done n) : Read (Step Node)) (joined s) = .ok r t) :
      Extends Larger n s r.get t := by
    obtain ⟨rfl, rfl⟩ := pure_inv read
    exact .inl ⟨rfl, .joined s⟩
  unfold binaryRound at read
  simp only [joinMark_bind, kind_bind] at read
  cases found : operatorOf (joined s).token.kind with
  | none =>
    rw [found] at read
    exact done read
  | some op =>
    rw [found] at read
    dsimp only at read
    split at read
    · exact done read
    · cases op with
      | asType | satisfies =>
        simp only [isFresh_bind] at read
        split at read
        · exact done read
        · obtain ⟨-, u, -, read⟩ := bind_inv read
          obtain ⟨type, v, -, read⟩ := bind_inv read
          simp only [isTyped_bind] at read
          split at read
          · obtain ⟨-, w, -, read⟩ := bind_inv read
            exact .inr (more rfl read)
          · exact .inr (more rfl read)
      | binary op =>
        simp only [context_bind] at read
        split at read
        · exact done read
        · obtain ⟨-, u, -, read⟩ := bind_inv read
          obtain ⟨right, v, -, read⟩ := bind_inv read
          split at read
          · obtain ⟨-, w, -, read⟩ := bind_inv read
            exact .inr (more rfl read)
          · exact .inr (more rfl read)
      | logical op =>
        obtain ⟨-, u, -, read⟩ := bind_inv read
        obtain ⟨right, v, -, read⟩ := bind_inv read
        obtain ⟨-, w, -, read⟩ := bind_inv read
        exact .inr (more rfl read)

theorem binaryRest_extends {start : Nat} {above : Strength}
    (read : binaryRest go start n above s = .ok m t) : Extends Larger n s m t :=
  iterate_extends (fun _ _ _ _ => binaryRound_extends) read

theorem conditionalRest_extends {start : Nat} {resultType : Bool}
    (read : conditionalRest go start n resultType s = .ok m t) : Extends Larger n s m t := by
  unfold conditionalRest at read
  obtain ⟨ate, u, question, read⟩ := bind_inv read
  split at read
  · obtain ⟨yes, v, -, read⟩ := bind_inv read
    obtain ⟨-, w, -, read⟩ := bind_inv read
    obtain ⟨no, w', -, last⟩ := bind_inv read
    exact .inr (value_larger rfl last)
  next no =>
    obtain ⟨rfl, rfl⟩ := pure_inv read
    rcases eat_inv question with ⟨rfl, -⟩ | ⟨-, rfl⟩
    · exact absurd rfl no
    · exact .refl _ _

/-- A name alone can still become the parameter of an arrow function; anything else is kept, or
assigned to, or becomes a condition. -/
theorem assignmentRest_extends {token : Token} {resultType : Bool} (inert : token.inert = false)
    (pure : token.pure = false) (name : ∀ w, n.form ≠ .identifier w)
    (read : assignmentRest go token n resultType s = .ok m t) : Extends Larger n s m t := by
  have same : assignmentRest go token n resultType s =
      (assignOf s.token.kind).elim (conditionalRest go token.start n resultType) (fun op => do
        let target ← cover .whole n
        bump
        let v ← go (.assignment resultType)
        value (.assign op) token.start [target, v]) s := by
    unfold assignmentRest
    simp only [kind_bind, inertFrom, inert, pure, Bool.false_eq_true, if_false]
    refine congrFun ?_ s
    split
    next w form _ => exact absurd form (name w)
    next =>
      cases assignOf s.token.kind with
      | some op => rfl
      | none => exact bind_pure _
  rw [same] at read
  cases found : assignOf s.token.kind with
  | some op =>
    rw [found] at read
    obtain ⟨target, u, -, read⟩ := bind_inv read
    obtain ⟨-, v, -, read⟩ := bind_inv read
    obtain ⟨right, w, -, last⟩ := bind_inv read
    exact .inr (value_larger rfl last)
  | none =>
    rw [found] at read
    exact conditionalRest_extends read

end Operators

/-! ## Expressions that begin with a string, a template or a parenthesis -/

/-- The token is a string, a template, an opening parenthesis or broken: no operator and no word
begins with it. -/
def isBracketed : TokenKind → Bool
  | .string _ _ | .template _ _ | .broken | .punct .lparen => true
  | _ => false

section Bracketed

variable {go : Descend} {n m : Node} (kind : isBracketed s.token.kind = true)

include kind

theorem bracketed_ne {k : TokenKind} (other : isBracketed k = false) :
    (s.token.kind == k) = false := by
  refine beq_false_of_ne fun same => ?_
  rw [same, other] at kind
  cases kind

/-- A token that is no word is moved over. -/
theorem bump_bracketed : bump s = .ok () (advance s) := by
  unfold bump
  simp only [token_bind]
  cases here : s.token.kind with
  | word w =>
    rw [here] at kind
    cases kind
  | _ => rfl

theorem updateOf_bracketed : updateOf s.token.kind = none := by
  revert kind
  cases s.token.kind with
  | punct p => cases p <;> decide
  | _ => simp [isBracketed, updateOf]

theorem unaryExpression_bracketed : unaryExpression go s = updateExpression go s := by
  have unary : unaryOf s.token.kind = none := by
    revert kind
    cases s.token.kind with
    | punct p => cases p <;> decide
    | _ => simp [isBracketed, unaryOf]
  have noAwait : isAwait s = .ok false s := by
    unfold isAwait
    simp only [atWord_bind, bracketed_ne kind (k := .word "await") rfl]
    rfl
  unfold unaryExpression
  simp only [start_bind, kind_bind, unary, bracketed_ne kind (k := .punct .lt) rfl, language_bind,
    isTyped_bind, Bool.false_and, Bool.false_eq_true, if_false]
  rw [bind_ok noAwait]
  rfl

theorem binaryExpression_bracketed {above : Strength} : binaryExpression go above s =
    (go .unary >>= fun first => binaryRest go s.token.start first above) s := by
  unfold binaryExpression
  simp only [start_bind, kind_bind]
  cases here : s.token.kind with
  | privateName w =>
    rw [here] at kind
    cases kind
  | _ => rfl

/-- Neither alone nor after an opening parenthesis such a token begins an arrow function. -/
theorem guessArrow_bracketed
    (next : s.token.kind = .punct .lparen → isBracketed (advance s).token.kind = true) :
    ∃ t, guessArrow s = .ok .no t ∧ t.Like s := by
  have look {r : Read Guess} {u : ReadState input} (read : r s = .ok .no u)
      (defaults : u.defaults = s.defaults) :
      ∃ t, lookahead .no r s = .ok .no t ∧ t.Like s := by
    unfold lookahead
    rw [read]
    exact ⟨_, rfl, (ReadState.Back.restore s u).toBeside, defaults⟩
  have plain {t : ReadState input} (kind : isBracketed t.token.kind = true) :
      guessParens t = .ok .no t := by
    unfold guessParens
    simp only [kind_bind]
    cases here : t.token.kind with
    | punct p =>
      rw [here] at kind
      cases p <;> first | rfl | cases kind
    | word w =>
      rw [here] at kind
      cases kind
    | _ => rfl
  unfold guessArrow
  cases here : s.token.kind with
  | punct p =>
    cases p with
    | lparen =>
      refine look (u := advance s) ?_ rfl
      simp only [atWord_bind, bracketed_ne kind (k := .word "async") rfl, Bool.false_eq_true, if_false,
        kind_bind]
      simp only [here]
      rw [bind_ok (bump_bracketed kind)]
      exact plain (next here)
    | _ =>
      rw [here] at kind
      cases kind
  | word w =>
    rw [here] at kind
    cases kind
  | _ =>
    refine look (u := s) ?_ rfl
    simp only [atWord_bind, bracketed_ne kind (k := .word "async") rfl, Bool.false_eq_true, if_false,
      kind_bind]
    simp only [here]
    rfl

/-- An expression that begins so is read from its first operand on. -/
theorem assignment_bracketed (go : Descend) (resultType : Bool)
    (next : s.token.kind = .punct .lparen → isBracketed (advance s).token.kind = true) :
    ∃ t, t.Like s ∧ assignment go resultType s = (go (.binary .comma) >>= fun left =>
      assignmentRest go s.token left resultType) t := by
  obtain ⟨t, guess, like⟩ := guessArrow_bracketed kind next
  have noArrow : parenthesizedArrow go resultType s = .ok none t := by
    unfold parenthesizedArrow
    rw [bind_ok guess]
    rfl
  have noYield : isYield s = .ok false s := by
    unfold isYield
    simp only [atWord_bind, bracketed_ne kind (k := .word "yield") rfl]
    rfl
  have noAsync : asyncSoleArrow go resultType t = .ok none t := by
    have other : (t.token.kind == .word "async") = false := by
      rw [like.kind]
      exact bracketed_ne kind rfl
    unfold asyncSoleArrow
    simp only [atWord_bind, other]
    rfl
  refine ⟨t, like, ?_⟩
  unfold assignment
  simp only [token_bind]
  rw [bind_ok noYield]
  simp only [Bool.false_eq_true, if_false]
  rw [bind_ok noArrow]
  dsimp only
  rw [bind_ok noAsync]

end Bracketed

theorem updateExpression_extends {go : Descend} {m : Node} (kind : isBracketed s.token.kind = true)
    (read : updateExpression go s = .ok m t) :
    ∃ n u, primary go s = .ok n u ∧ Extends Larger n u m t := by
  unfold updateExpression at read
  simp only [start_bind, kind_bind, updateOf_bracketed kind, isAt_bind,
    bracketed_ne kind (k := .punct .lt) rfl, language_bind, Bool.false_and, Bool.false_eq_true,
    if_false] at read
  obtain ⟨e, u, first, read⟩ := bind_inv read
  obtain ⟨n, v, operand, extends'⟩ := leftHandSide_extends first
  refine ⟨n, v, operand, extends'.trans ?_⟩
  simp only [kind_bind] at read
  cases after : updateOf u.token.kind with
  | none =>
    rw [after] at read
    obtain ⟨rfl, rfl⟩ := pure_inv read
    exact .refl _ _
  | some op =>
    rw [after] at read
    simp only [isFresh_bind] at read
    split at read
    · obtain ⟨rfl, rfl⟩ := pure_inv read
      exact .refl _ _
    · obtain ⟨-, w, -, read⟩ := bind_inv read
      obtain ⟨target, w', -, last⟩ := bind_inv read
      exact .inr (value_larger rfl last)

/-- What is read from an operand on that begins with a string, a template or a parenthesis: the
operand, or something larger. -/
theorem operand_extends {d : Nat} {token : Token} {resultType : Bool} {m : Node}
    (kind : isBracketed s.token.kind = true) (inert : token.inert = false)
    (pure : token.pure = false)
    (read : (descend (d + 2) (.binary .comma) >>= fun left =>
      assignmentRest (descend (d + 2)) token left resultType) s = .ok m t) :
    ∃ n v, primary (descend d) s = .ok n v ∧
      ((∀ w, n.form ≠ .identifier w) → Extends Larger n v m t) := by
  obtain ⟨left, v, operand, rest⟩ := bind_inv read
  change binaryExpression (descend (d + 1)) .comma s = _ at operand
  rw [binaryExpression_bracketed kind] at operand
  obtain ⟨first, w, unary, operators⟩ := bind_inv operand
  change unaryExpression (descend d) s = _ at unary
  rw [unaryExpression_bracketed kind] at unary
  obtain ⟨n, v', start, extends'⟩ := updateExpression_extends kind unary
  refine ⟨n, v', start, fun name => ?_⟩
  have all := extends'.trans (binaryRest_extends operators)
  refine all.trans (assignmentRest_extends inert pure (fun w same => ?_) rest)
  rcases all with ⟨rfl, -⟩ | larger
  · exact name w same
  · rw [Larger, same] at larger
    cases larger

/-- What an expression becomes that begins with a string, a template or a parenthesis: its first
operand, or something larger. -/
theorem assignment_extends {d : Nat} {resultType : Bool} {m : Node}
    (kind : isBracketed s.token.kind = true)
    (next : s.token.kind = .punct .lparen → isBracketed (advance s).token.kind = true)
    (inert : s.token.inert = false) (pure : s.token.pure = false)
    (read : descend (d + 3) (.assignment resultType) s = .ok m t) :
    ∃ s' n v, s'.Like s ∧ primary (descend d) s' = .ok n v ∧
      ((∀ w, n.form ≠ .identifier w) → Extends Larger n v m t) := by
  obtain ⟨s', like, same⟩ := assignment_bracketed kind (descend (d + 2)) resultType next
  change assignment (descend (d + 2)) resultType s = _ at read
  rw [same] at read
  obtain ⟨n, v, first, grown⟩ := operand_extends (by rw [like.kind, kind]) inert pure read
  exact ⟨s', n, v, like, first, grown⟩

/-! ## Expressions that begin with a parenthesis -/

section Parenthesis

variable {go : Descend} {m : Node}

theorem primary_paren (go : Descend) (paren : s.token.kind = .punct .lparen) :
    primary go s = parenthesized go s := by
  unfold primary
  simp only [kind_bind, paren]

theorem arrowBody_larger {h : ArrowHead} {resultType : Bool}
    (read : arrowBody go h resultType s = .ok m t) : Larger m := by
  unfold arrowBody at read
  simp only [isAt_bind] at read
  obtain ⟨body, u, -, last⟩ := bind_inv read
  exact value_larger rfl last

theorem attempt_none {r : Read α} (read : attempt r s = .ok none t) : ∃ u, t = restore s u := by
  unfold attempt at read
  split at read <;> cases read
  exact ⟨_, rfl⟩

/-- There is an arrow function, or the reader has stepped back to where it was. -/
theorem parenthesizedArrow_inv {resultType : Bool} {o : Option Node}
    (read : parenthesizedArrow go resultType s = .ok o t) :
    o = none ∧ t.Back s ∨ ∃ f, o = some f ∧ Larger f := by
  unfold parenthesizedArrow at read
  obtain ⟨guess, u, first, read⟩ := bind_inv read
  obtain ⟨v, rfl⟩ := lookahead_inv first
  have body {h : ArrowHead} {resultType : Bool} {u : ReadState input}
      (read : (arrowBody go h resultType >>= fun f => pure (some f)) u = .ok o t) :
      ∃ f, o = some f ∧ Larger f := by
    obtain ⟨f, w, one, last⟩ := bind_inv read
    obtain ⟨rfl, rfl⟩ := pure_inv last
    exact ⟨f, rfl, arrowBody_larger one⟩
  cases guess with
  | no =>
    obtain ⟨rfl, rfl⟩ := pure_inv read
    exact .inl ⟨rfl, .restore s v⟩
  | yes =>
    obtain ⟨h, w, -, read⟩ := bind_inv read
    exact .inr (body read)
  | maybe =>
    simp only [start_bind, get_bind] at read
    split at read
    · obtain ⟨rfl, rfl⟩ := pure_inv read
      exact .inl ⟨rfl, .restore s v⟩
    · simp only [get_bind] at read
      obtain ⟨head, w, tried, read⟩ := bind_inv read
      cases head with
      | none =>
        obtain ⟨x, rfl⟩ := attempt_none tried
        cases read
        exact .inl ⟨rfl, ⟨rfl, rfl, rfl, rfl, rfl, rfl, rfl⟩, rfl⟩
      | some h =>
        obtain ⟨f, x, one, read⟩ := bind_inv read
        simp only [isAt_bind] at read
        split at read
        · cases read
          exact .inl ⟨rfl, ⟨rfl, rfl, rfl, rfl, rfl, rfl, rfl⟩, rfl⟩
        · obtain ⟨rfl, rfl⟩ := pure_inv read
          exact .inr ⟨f, rfl, arrowBody_larger one⟩

/-- What begins with a parenthesis is an arrow function or another larger expression, or just what
the parentheses hold. -/
theorem assignment_paren {d : Nat} {resultType : Bool} (paren : s.token.kind = .punct .lparen)
    (inert : s.token.inert = false) (pure : s.token.pure = false)
    (read : descend (d + 3) (.assignment resultType) s = .ok m t) :
    Larger m ∨ ∃ s' n v, s'.Back s ∧ parenthesized (descend d) s' = .ok n v ∧
      ((∀ w, n.form ≠ .identifier w) → Extends Larger n v m t) := by
  have kind : isBracketed s.token.kind = true := by
    rw [paren]
    rfl
  have noYield : isYield s = .ok false s := by
    unfold isYield
    simp only [atWord_bind, bracketed_ne kind (k := .word "yield") rfl]
    rfl
  change assignment (descend (d + 2)) resultType s = _ at read
  unfold assignment at read
  simp only [token_bind] at read
  rw [bind_ok noYield] at read
  simp only [Bool.false_eq_true, if_false] at read
  obtain ⟨o, s', arrow, read⟩ := bind_inv read
  rcases parenthesizedArrow_inv arrow with ⟨rfl, back⟩ | ⟨f, rfl, larger⟩
  · have kind' : isBracketed s'.token.kind = true := by rw [back.kind, kind]
    have noAsync : asyncSoleArrow (descend (d + 2)) resultType s' = .ok none s' := by
      unfold asyncSoleArrow
      simp only [atWord_bind, bracketed_ne kind' (k := .word "async") rfl]
      rfl
    dsimp only at read
    rw [bind_ok noAsync] at read
    obtain ⟨n, v, first, grown⟩ := operand_extends kind' inert pure read
    rw [primary_paren _ (back.kind.trans paren)] at first
    exact .inr ⟨s', n, v, back, first, grown⟩
  · obtain ⟨rfl, rfl⟩ := pure_inv read
    rw [inertFrom, inert]
    exact .inl larger

end Parenthesis

end Read

end Splice
