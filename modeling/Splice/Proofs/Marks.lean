import Splice.Proofs.Appending
import Splice.Proofs.Dotted

/-!
# Constructs with marks

Most expressions are printed with a character that stands in no dotted name: an operator, a bracket,
a quote, the space after a keyword. What is printed later does not take it away again, so such an
expression is not printed like a dotted name.
-/
namespace Splice

/-- A character of no dotted name, known at once. -/
class Foreign (c : Char) : Prop where
  foreign : isForeign c = true

instance : Foreign ' ' := ⟨by decide⟩

instance : Foreign '(' := ⟨by decide⟩

instance : Foreign '[' := ⟨by decide⟩

instance : Foreign '{' := ⟨by decide⟩

instance : Foreign '<' := ⟨by decide⟩

instance : Foreign '*' := ⟨by decide⟩

instance : Foreign '!' := ⟨by decide⟩

instance : Foreign '?' := ⟨by decide⟩

instance : Foreign '#' := ⟨by decide⟩

instance : Foreign '=' := ⟨by decide⟩

instance : Foreign '+' := ⟨by decide⟩

instance : Foreign '-' := ⟨by decide⟩

instance : Foreign '~' := ⟨by decide⟩

instance : Foreign ',' := ⟨by decide⟩

instance : Foreign '\x60' := ⟨by decide⟩

instance : Foreign '\x22' := ⟨by decide⟩

namespace Emit

/-- A printer that leaves a character of no dotted name behind, unless it minifies. -/
class Marks {α : Type} (m : StateM Out α) : Prop where
  exists_foreign : ∀ o : Out, o.minify = false → ∃ c ∈ (m o).2.text, isForeign c = true

/-! ## Putting printers together -/

section Combinators

variable {α β : Type} {m : StateM Out α} {f : α → StateM Out β}

instance Marks.first [marks : Marks m] [next : ∀ a, Appends (f a)] : Marks (m >>= f) where
  exists_foreign o full := by
    obtain ⟨c, inside, foreign⟩ := marks.exists_foreign o full
    exact ⟨c, ((next (m o).1).continues (m o).2).text.subset inside, foreign⟩

instance Marks.next [first : Appends m] [marks : ∀ a, Marks (f a)] : Marks (m >>= f) where
  exists_foreign o full :=
    (marks (m o).1).exists_foreign (m o).2 ((first.continues o).minify.trans full)

instance (priority := high) Marks.firstConst {next : StateM Out β} [Marks m] [Appends next] :
    Marks (m >>= fun _ => next) :=
  Marks.first

instance (priority := high) Marks.nextConst {next : StateM Out β} [Appends m] [Marks next] :
    Marks (m >>= fun _ => next) :=
  Marks.next

instance {c : Prop} [Decidable c] {m m' : StateM Out α} [Marks m] [Marks m'] :
    Marks (if c then m else m') := by
  split <;> infer_instance

instance (c : Char) [h : Foreign c] : Marks (char c) :=
  ⟨fun _ _ => ⟨c, List.mem_cons_self, h.foreign⟩⟩

theorem Marks.chars {cs : List Char} {c : Char} (inside : c ∈ cs) (foreign : isForeign c = true) :
    Marks (chars cs) :=
  ⟨fun _ _ => ⟨c, List.mem_append_left _ (List.mem_reverse.mpr inside), foreign⟩⟩

theorem Marks.text {s : String} (c : Char) [h : Foreign c] (inside : c ∈ s.toList) :
    Marks (text s) :=
  Marks.chars inside h.foreign

instance : Marks space := inferInstanceAs (Marks (char ' '))

instance : Marks softSpace where
  exists_foreign o full := by
    have spaced : softSpace o = space o := by
      change (if !o.minify then space else pure ()) o = space o
      rw [full]
      rfl
    rw [spaced]
    exact Marks.exists_foreign o full

instance : Marks comma := by unfold comma; infer_instance

instance Marks.wrapped (needed : Bool) {e : Emit} [Appends e] [Marks e] : Marks (wrap needed e) := by
  unfold wrap; infer_instance

theorem Marks.wrap_true {e : Emit} [Appends e] : Marks (wrap true e) := by
  unfold wrap
  rw [if_pos rfl]
  infer_instance

end Combinators

end Emit

/-! ## Expressions -/

namespace Print

open Emit
open Piece (AllAppend allAppend_cons)

section Expressions

variable {p q r : Piece} [p.Appends] [q.Appends] [r.Appends] {ps : List Piece} [AllAppend ps]

instance (qs : List Quasi) : Marks (template qs ps) := by unfold template; infer_instance

instance (name : String) (isOptional : Bool) (spot : Spot) :
    Marks (privateMember name isOptional p spot) := by
  have := Marks.text (s := ".#") '#' (by decide)
  unfold privateMember; infer_instance

instance (name : String) (spot : Spot) : Marks (member name true p spot) := by
  unfold member dot; simp only [if_true]; infer_instance

instance (isOptional : Bool) (spot : Spot) : Marks (index isOptional p q spot) := by
  unfold index; dsimp only; infer_instance

instance (close : Nat) : Marks (arguments close ps) := by
  unfold arguments; dsimp only; infer_instance

instance (isOptional pure : Bool) (span : Span) (spot : Spot) :
    Marks (call isOptional pure span p q ps spot) := by
  unfold call; dsimp only
  refine @Marks.next _ _ _ _ _ fun o => @Marks.wrapped _ _ ?_ ?_ <;> infer_instance

instance (pure : Bool) (span : Span) (spot : Spot) : Marks (construct pure span p ps spot) := by
  unfold construct; dsimp only; infer_instance

instance (phase : Option String) (span : Span) (spot : Spot) :
    Marks (importCall phase span p q spot) := by
  unfold importCall; dsimp only; infer_instance

instance (op : UnaryOp) (spot : Spot) : Marks (unary op p spot) := by
  have sign : op.isWord = false → Marks (text op.text) := by
    cases op with
    | plus => exact fun _ => .text '+' (by decide)
    | minus => exact fun _ => .text '-' (by decide)
    | not => exact fun _ => .text '!' (by decide)
    | complement => exact fun _ => .text '~' (by decide)
    | _ => nofun
  have marks : Marks (if op.isWord then do
        word op.text
        softSpace
        p.emit { spot with strength := .power }
      else do
        spaceBeforeOperator (.unary op)
        text op.text
        afterOperator (.unary op)
        p.emit { spot with strength := .power }) := by
    cases isWord : op.isWord with
    | false =>
      have := sign isWord
      simp only [Bool.false_eq_true, if_false]
      infer_instance
    | true =>
      simp only [if_true]
      infer_instance
  unfold unary; dsimp only; infer_instance

instance (op : UpdateOp) (before : Bool) (spot : Spot) : Marks (update op before p spot) := by
  have sign : Marks (text op.text) := by
    cases op with
    | increment => exact .text '+' (by decide)
    | decrement => exact .text '-' (by decide)
  unfold update; dsimp only; infer_instance

instance (needed : Bool) (strengths : Strength × Strength) {mark : Emit} [Appends mark]
    (spot : Spot) : Marks (infixed needed p q strengths mark spot) := by
  unfold infixed; dsimp only; infer_instance

instance (op : BinaryOp) (spot : Spot) : Marks (binary op p q spot) := by
  unfold binary; dsimp only; infer_instance

instance (op : LogicalOp) (spot : Spot) : Marks (logical op p q spot) := by
  unfold logical; dsimp only; infer_instance

instance (spot : Spot) : Marks (privateIn p q spot) := by
  have := Marks.text (s := " in ") ' ' (by decide)
  unfold privateIn; infer_instance

instance (spot : Spot) : Marks (conditional p q r spot) := by
  unfold conditional; dsimp only; infer_instance

instance (op : AssignOp) (spot : Spot) : Marks (assign op p q spot) := by
  unfold assign; dsimp only; infer_instance

instance (spot : Spot) : Marks (awaitExpression p spot) := by
  unfold awaitExpression; infer_instance

instance : Marks (array ps) := by unfold array; dsimp only; infer_instance

instance (spot : Spot) : Marks (objectBraces ps spot) := by
  unfold objectBraces; dsimp only; infer_instance

instance (start : Nat) (spot : Spot) : Marks (objectLiteral start ps spot) := by
  unfold objectLiteral; dsimp only; infer_instance

instance (spot : Spot) : Marks (asType p q spot) := by
  have := Marks.text (s := " as ") ' ' (by decide)
  unfold asType; infer_instance

instance (spot : Spot) : Marks (satisfies p q spot) := by
  have := Marks.text (s := "((") '(' (by decide)
  unfold satisfies; infer_instance

instance (spot : Spot) : Marks (assertion p q spot) := by
  have := Marks.text (s := "(<") '(' (by decide)
  unfold assertion; dsimp only
  refine @Marks.first _ _ _ _ _ fun _ => ?_
  split <;> infer_instance

instance (spot : Spot) : Marks (nonNull p spot) := by
  unfold nonNull; dsimp only; infer_instance

instance : Marks (typeArguments ps) := by unfold typeArguments; infer_instance

instance : Marks (fragment ps) := by
  have := Marks.text (s := "<>") '<' (by decide)
  unfold fragment; infer_instance

end Expressions

/-! ## Functions, classes and elements -/

section Functions

variable {p q : Piece} [p.Appends] [q.Appends] {ps : List Piece} [all : AllAppend ps]

instance : Marks (parameters p q) := by unfold parameters; dsimp only; infer_instance

theorem functionTail_marks (parts : ps.length = 6) (spot : Spot) : Marks (functionTail ps spot) := by
  rcases ps with _ | ⟨a, _ | ⟨b, _ | ⟨c, _ | ⟨d, _ | ⟨e, _ | ⟨f, _ | ⟨h, hs⟩⟩⟩⟩⟩⟩⟩
  case cons.cons.cons.cons.cons.cons.nil =>
    simp only [allAppend_cons] at all
    obtain ⟨_, _, _, _, _, _, -⟩ := all
    unfold functionTail; dsimp only; infer_instance
  all_goals cases parts

theorem function_marks (traits : FunctionTraits) (parts : ps.length = 6) (spot : Spot) :
    Marks (function traits ps spot) := by
  have := functionTail_marks parts spot
  unfold function; dsimp only; infer_instance

theorem arrowTail_marks (bare : Bool) (parts : ps.length = 4) (spot : Spot) :
    Marks (arrowTail bare ps spot) := by
  rcases ps with _ | ⟨a, _ | ⟨b, _ | ⟨c, _ | ⟨d, _ | ⟨h, hs⟩⟩⟩⟩⟩
  case cons.cons.cons.cons.nil =>
    simp only [allAppend_cons] at all
    obtain ⟨_, _, _, _, -⟩ := all
    unfold arrowTail; dsimp only; infer_instance
  all_goals cases parts

theorem arrow_marks (traits : ArrowTraits) (parts : ps.length = 4) (spot : Spot) :
    Marks (arrow traits ps spot) := by
  have := arrowTail_marks traits.bare parts spot
  unfold arrow; infer_instance

theorem classDef_marks (traits : ClassTraits) (parts : ps.length = 7) (spot : Spot) :
    Marks (classDef traits ps spot) := by
  rcases ps with _ | ⟨a, _ | ⟨b, _ | ⟨c, _ | ⟨d, _ | ⟨e, _ | ⟨f, _ | ⟨g, _ | ⟨h, hs⟩⟩⟩⟩⟩⟩⟩⟩
  case cons.cons.cons.cons.cons.cons.cons.nil =>
    simp only [allAppend_cons] at all
    obtain ⟨_, _, _, _, _, _, _, -⟩ := all
    unfold classDef; dsimp only; infer_instance
  all_goals cases parts

theorem element_marks (parts : ps.length = 5) : Marks (element ps) := by
  rcases ps with _ | ⟨a, _ | ⟨b, _ | ⟨c, _ | ⟨d, _ | ⟨e, _ | ⟨h, hs⟩⟩⟩⟩⟩⟩
  case cons.cons.cons.cons.cons.nil =>
    simp only [allAppend_cons] at all
    obtain ⟨_, _, _, _, _, -⟩ := all
    unfold element; dsimp only; infer_instance
  all_goals cases parts

end Functions

end Print

end Splice
