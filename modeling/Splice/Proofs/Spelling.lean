import Splice.Print.Expression
import Splice.Proofs.Term

/-!
# The tokens of a term

Between operators a part stands in parentheses if it binds no tighter than its surroundings allow.
`Term.toks` are the tokens of a term that is written with these parentheses and no others.
-/
namespace Splice

/-! ## Operators as tokens -/

/-- A keyword as a token. -/
def keyword (text : String) (spelled : isSpelled text.toList = true := by rfl) : Tok :=
  .word ⟨text, spelled⟩

def UnaryOp.tok : UnaryOp → Tok
  | plus => .mark .plus
  | minus => .mark .minus
  | not => .mark .bang
  | complement => .mark .tilde
  | typeof => keyword "typeof"
  | void => keyword "void"
  | delete => keyword "delete"

def BinaryOp.tok : BinaryOp → Tok
  | eq => .mark .eqEq
  | ne => .mark .bangEq
  | strictEq => .mark .eqEqEq
  | strictNe => .mark .bangEqEq
  | lt => .mark .lt
  | le => .mark .ltEq
  | gt => .mark .gt
  | ge => .mark .gtEq
  | shiftLeft => .mark .shl
  | shiftRight => .mark .shr
  | shiftRightZero => .mark .ushr
  | add => .mark .plus
  | sub => .mark .minus
  | mul => .mark .star
  | div => .mark .slash
  | rem => .mark .percent
  | pow => .mark .starStar
  | bitOr => .mark .pipe
  | bitXor => .mark .caret
  | bitAnd => .mark .amp
  | isIn => keyword "in"
  | instanceof => keyword "instanceof"

def LogicalOp.tok : LogicalOp → Tok
  | or => .mark .pipePipe
  | and => .mark .ampAmp
  | coalesce => .mark .coalesce

theorem UnaryOp.tok_chars (op : UnaryOp) : op.tok.chars = op.text.toList := by
  cases op <;> rfl

theorem BinaryOp.tok_chars (op : BinaryOp) : op.tok.chars = op.text.toList := by
  cases op <;> rfl

theorem LogicalOp.tok_chars (op : LogicalOp) : op.tok.chars = op.text.toList := by
  cases op <;> rfl

namespace Term

/-! ## Parentheses -/

/-- How tightly a term binds, on the scale of the strengths; names and member accesses are never
taken apart. -/
def level : Term → Nat
  | name _ => Strength.member.rank + 1
  | member _ _ => Strength.member.rank + 1
  | call _ _ => Strength.new.rank
  | unary _ _ => Strength.unary.rank
  | binary op _ _ => op.strength.rank
  | logical op _ _ => op.strength.rank
  | conditional _ _ _ => Strength.conditional.rank

/-- The term needs parentheses in surroundings of the given strength. -/
def isWrapped (e : Term) (s : Strength) : Bool := decide (e.level ≤ s.rank)

theorem isWrapped_name (n : Name) (s : Strength) : (name n).isWrapped s = false := by
  cases s <;> rfl

def isUnary : Term → Bool
  | unary _ _ => true
  | _ => false

/-- The logical operators that `??` may not be mixed with. -/
def mixes : Term → Bool
  | logical op _ _ => op != .coalesce
  | _ => false

/-- The surroundings of the left operand. -/
def leftSpot (op : BinaryOp) (left : Term) : Strength :=
  if op == .pow && left.isUnary then .call else (Print.operandStrengths op.strength op.below).1

/-- The surroundings of the right operand. -/
def rightSpot (op : BinaryOp) : Strength := (Print.operandStrengths op.strength op.below).2

/-- The surroundings of either operand of a logical operator. -/
def sideSpot (op : LogicalOp) (side : Term) : Strength :=
  if op == .coalesce && side.mixes then .unary else op.below

end Term

/-- Puts tokens in parentheses if needed. -/
def enclose (needed : Bool) (ts : List Tok) : List Tok :=
  if needed then .mark .lparen :: (ts ++ [.mark .rparen]) else ts

namespace Term

mutual

/-- The tokens of a term. -/
def toks : Term → List Tok
  | name n => [.word n.toWord]
  | member o f => enclose (o.isWrapped .update) o.toks ++ [.mark .dot, .word f]
  | call f as =>
    enclose (f.isWrapped .update) f.toks ++ .mark .lparen :: (argumentToks as ++ [.mark .rparen])
  | unary op x => op.tok :: enclose (x.isWrapped .power) x.toks
  | binary op l r =>
    enclose (l.isWrapped (leftSpot op l)) l.toks ++
      op.tok :: enclose (r.isWrapped (rightSpot op)) r.toks
  | logical op l r =>
    enclose (l.isWrapped (sideSpot op l)) l.toks ++
      op.tok :: enclose (r.isWrapped (sideSpot op r)) r.toks
  | conditional t y n =>
    enclose (t.isWrapped .conditional) t.toks ++
      .mark .question :: (y.toks ++ .mark .colon :: n.toks)

/-- The tokens of arguments with commas between them. -/
def argumentToks : List Term → List Tok
  | [] => []
  | a :: as => a.toks ++ laterToks as

/-- The tokens of the arguments after the first one. -/
def laterToks : List Term → List Tok
  | [] => []
  | a :: as => .mark .comma :: (a.toks ++ laterToks as)

end

/-- The tokens of a term in surroundings of the given strength. -/
def placed (s : Strength) (e : Term) : List Tok := enclose (e.isWrapped s) e.toks

mutual

/-- The number of parts of a term. -/
def weight : Term → Nat
  | name _ => 1
  | member o _ => o.weight + 1
  | call f as => f.weight + weights as + 1
  | unary _ x => x.weight + 1
  | binary _ l r => l.weight + r.weight + 1
  | logical _ l r => l.weight + r.weight + 1
  | conditional t y n => t.weight + y.weight + n.weight + 1

def weights : List Term → Nat
  | [] => 0
  | a :: as => a.weight + weights as

end

theorem weight_pos (e : Term) : 0 < e.weight := by
  cases e <;> simp [weight]

theorem weight_le_weights {a : Term} {as : List Term} (inside : a ∈ as) :
    a.weight ≤ weights as := by
  induction as with
  | nil => cases inside
  | cons b as ih =>
    rw [weights]
    rcases List.mem_cons.mp inside with rfl | later
    · omega
    · have rest := ih later
      omega

theorem length_enclose (needed : Bool) (ts : List Tok) : ts.length ≤ (enclose needed ts).length := by
  unfold enclose
  split
  · simp only [List.length_cons, List.length_append]
    omega
  · exact Nat.le_refl _

theorem weights_le_length (as : List Term) (each : ∀ a ∈ as, a.weight ≤ a.toks.length) :
    weights as ≤ (argumentToks as).length ∧ weights as ≤ (laterToks as).length := by
  induction as with
  | nil => simp [weights]
  | cons a as ih =>
    have first := each a (by simp)
    obtain ⟨-, rest⟩ := ih fun b inside => each b (by simp [inside])
    simp only [weights, argumentToks, laterToks, List.length_append, List.length_cons]
    omega

/-- A term has at least as many tokens as parts. -/
theorem weight_le_length (e : Term) : e.weight ≤ e.toks.length := by
  induction e using Term.induction_on with
  | name n => simp [weight, toks]
  | member o f ih =>
    have object := length_enclose (o.isWrapped .update) o.toks
    simp only [weight, toks, List.length_append, List.length_cons]
    omega
  | call f as ih each =>
    have callee := length_enclose (f.isWrapped .update) f.toks
    have arguments := (weights_le_length as each).1
    simp only [weight, toks, List.length_append, List.length_cons]
    omega
  | unary op x ih =>
    have operand := length_enclose (x.isWrapped .power) x.toks
    simp only [weight, toks, List.length_cons]
    omega
  | binary op l r ihl ihr =>
    have left := length_enclose (l.isWrapped (leftSpot op l)) l.toks
    have right := length_enclose (r.isWrapped (rightSpot op)) r.toks
    simp only [weight, toks, List.length_append, List.length_cons]
    omega
  | logical op l r ihl ihr =>
    have left := length_enclose (l.isWrapped (sideSpot op l)) l.toks
    have right := length_enclose (r.isWrapped (sideSpot op r)) r.toks
    simp only [weight, toks, List.length_append, List.length_cons]
    omega
  | conditional t y n iht ihy ihn =>
    have test := length_enclose (t.isWrapped .conditional) t.toks
    simp only [weight, toks, List.length_append, List.length_cons]
    omega

end Term

end Splice
