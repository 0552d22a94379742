import Mathlib.Data.List.Infix
import Splice.Print.Node
import Splice.Proofs.Position

/-!
# Printing appends

Whatever is printed, the text printed before stays as it is, and so does the choice of minifying.
The rules that print a construct are put together from a few printers, so this is a class: an
instance for each rule follows from those for its parts.
-/
namespace Splice

/-- The second output goes on from the first. -/
structure Out.Continues (o o' : Out) : Prop where
  text : o.text <:+ o'.text
  minify : o'.minify = o.minify

namespace Emit

/-- A printer that only appends. -/
class Appends {α : Type} (m : StateM Out α) : Prop where
  continues : ∀ o : Out, o.Continues (m o).2

/-! ## Putting printers together -/

section Combinators

variable {α β : Type}

instance Appends.bind {m : StateM Out α} {f : α → StateM Out β} [first : Appends m]
    [next : ∀ a, Appends (f a)] : Appends (m >>= f) where
  continues o :=
    have before := first.continues o
    have after := (next (m o).1).continues (m o).2
    ⟨before.text.trans after.text, after.minify.trans before.minify⟩

/-- Most printers give nothing to the next one. Taken as a case of `Appends.bind`, the next one would be
counted twice in the size of the instance. -/
instance (priority := high) Appends.bindConst {m : StateM Out α} {next : StateM Out β} [Appends m]
    [Appends next] : Appends (m >>= fun _ => next) :=
  Appends.bind

/-- A printer that leaves the text alone. -/
theorem Appends.of_same {m : StateM Out α}
    (same : ∀ o, (m o).2.text = o.text ∧ (m o).2.minify = o.minify) : Appends m where
  continues o := ⟨by rw [(same o).1], (same o).2⟩

instance (a : α) : Appends (pure a : StateM Out α) := .of_same fun _ => ⟨rfl, rfl⟩

instance : Appends (get : StateM Out Out) := .of_same fun _ => ⟨rfl, rfl⟩

instance {c : Prop} [Decidable c] {m m' : StateM Out α} [Appends m] [Appends m'] :
    Appends (if c then m else m') := by
  split <;> infer_instance

/-- What follows a printer is looked at apart where the instance needs a case split. -/
theorem Appends.seq {m : StateM Out α} {f : α → StateM Out β} [Appends m]
    (next : ∀ a, Appends (f a)) : Appends (m >>= f) :=
  inferInstance

instance {f : α → Emit} [∀ a, Appends (f a)] (as : List α) : Appends (as.forM f) := by
  induction as with
  | nil => exact inferInstanceAs (Appends (pure () : Emit))
  | cons a as ih => exact inferInstanceAs (Appends (f a >>= fun _ => as.forM f))

instance Appends.forIn {f : α → β → StateM Out (ForInStep β)} [each : ∀ a b, Appends (f a b)] (as : List α)
    (b : β) : Appends (forIn as b f) := by
  induction as generalizing b with
  | nil =>
    rw [List.forIn_nil]
    infer_instance
  | cons a as ih =>
    rw [List.forIn_cons]
    refine @Appends.bind _ _ _ _ (each a b) fun step => ?_
    cases step with
    | done b => exact inferInstanceAs (Appends (pure b : StateM Out β))
    | yield b => exact ih b

end Combinators

/-! ## Characters and marks -/

section Characters

instance (c : Char) : Appends (char c) := ⟨fun _ => ⟨List.suffix_cons _ _, rfl⟩⟩

instance (cs : List Char) : Appends (chars cs) := ⟨fun _ => ⟨List.suffix_append _ _, rfl⟩⟩

instance (s : String) : Appends (text s) := inferInstanceAs (Appends (chars s.toList))

instance : Appends space := inferInstanceAs (Appends (char ' '))

instance : Appends newline := inferInstanceAs (Appends (char '\n'))

instance : Appends semicolon := inferInstanceAs (Appends (char ';'))

instance : Appends softSpace := by unfold softSpace; infer_instance

instance : Appends softNewline := by unfold softNewline; infer_instance

instance : Appends comma := by unfold comma; infer_instance

instance : Appends colon := by unfold colon; infer_instance

instance : Appends equals := by unfold equals; infer_instance

instance : Appends deeper := .of_same fun _ => ⟨rfl, rfl⟩

instance : Appends shallower := .of_same fun _ => ⟨rfl, rfl⟩

instance : Appends settled := .of_same fun _ => ⟨rfl, rfl⟩

instance : Appends (modify fun o => { o with indentAsSpace := false } : Emit) :=
  .of_same fun _ => ⟨rfl, rfl⟩

instance : Appends (modify fun o => { o with indentAsSpace := true } : Emit) :=
  .of_same fun _ => ⟨rfl, rfl⟩

instance : Appends (modify fun o => { o with owesSemicolon := true } : Emit) :=
  .of_same fun _ => ⟨rfl, rfl⟩

instance : Appends (modify fun o => { o with statementStart := o.size } : Emit) :=
  .of_same fun _ => ⟨rfl, rfl⟩

instance : Appends (modify fun o => { o with arrowStart := o.size } : Emit) :=
  .of_same fun _ => ⟨rfl, rfl⟩

instance : Appends (modify fun o => { o with defaultStart := o.size } : Emit) :=
  .of_same fun _ => ⟨rfl, rfl⟩

instance : Appends (modify fun o => { o with numberEnd := o.size } : Emit) :=
  .of_same fun _ => ⟨rfl, rfl⟩

instance : Appends (modify fun o => { o with regexpEnd := o.size } : Emit) :=
  .of_same fun _ => ⟨rfl, rfl⟩

instance (elements : Bool) : Appends (modify fun o => { o with elements } : Emit) :=
  .of_same fun _ => ⟨rfl, rfl⟩

instance (op : OperatorMark) : Appends (afterOperator op) := .of_same fun _ => ⟨rfl, rfl⟩

instance : Appends indent := by unfold indent; infer_instance

instance : Appends endStatement := by unfold endStatement; infer_instance

instance : Appends owedSemicolon := by unfold owedSemicolon; infer_instance

instance : Appends spaceBeforeWord := by
  unfold spaceBeforeWord
  refine Appends.seq fun o => ?_
  cases o.text <;> infer_instance

instance (next : OperatorMark) : Appends (spaceBeforeOperator next) := by
  unfold spaceBeforeOperator
  refine Appends.seq fun o => ?_
  cases o.lastOperator <;> infer_instance

instance (s : String) : Appends (word s) := by unfold word; infer_instance

instance (needed : Bool) {e : Emit} [Appends e] : Appends (wrap needed e) := by
  unfold wrap; infer_instance

instance (oneLine : Bool) {e : Emit} [Appends e] : Appends (braces oneLine e) := by
  unfold braces; dsimp only; infer_instance

instance {α : Type} {item : α → Emit} [∀ a, Appends (item a)] (as : List α) :
    Appends (list item as) := by
  fun_induction list item as <;> infer_instance

instance (value : String) (surrogates backticks : Bool) :
    Appends (quoted value surrogates backticks) := by
  unfold quoted; infer_instance

instance (d : Double) : Appends (magnitude d) := by unfold magnitude; infer_instance

instance (d : Double) (spot : Spot) : Appends (number d spot) := by unfold number; infer_instance

end Characters

/-! ## Comments -/

section Comments

instance (pos : Nat) : Appends (hasComment pos) := by unfold hasComment; infer_instance

theorem takeComments_apply (pos : Nat) (o : Out) :
    takeComments pos o = if o.comments.isEmpty then ([], o) else
      let parts := o.comments.partition fun c => c.leads == some pos
      (parts.1, { o with comments := parts.2 }) :=
  ite_apply _ _ _ o

instance (pos : Nat) : Appends (takeComments pos) := by
  refine .of_same fun o => ?_
  rw [takeComments_apply]
  split <;> exact ⟨rfl, rfl⟩

instance (c : Comment) : Appends (comment c) := by unfold comment; dsimp only; infer_instance

instance (c : Comment) : Appends (beginComments c) := by
  unfold beginComments
  have line : ∀ o : Out, Appends (match o.text with
      | [] => pure ()
      | '\n' :: _ => indent
      | '\t' :: _ => pure ()
      | _ => do
        newline
        indent : Emit) := by
    intro o
    split <;> infer_instance
  infer_instance

instance (last : Comment) (cs : List Comment) : Appends (moreComments last cs) := by
  fun_induction moreComments last cs <;> infer_instance

instance (cs : List Comment) : Appends (printComments cs) := by
  cases cs <;> unfold printComments <;> infer_instance

instance (pos : Nat) : Appends (commentsAt pos) := by unfold commentsAt; infer_instance

instance (pos : Nat) : Appends (argumentComments pos) := by
  unfold argumentComments; infer_instance

end Comments

end Emit

/-! ## Pieces -/

open Emit (Appends)

/-- A piece that only appends, and so do its parts. -/
class inductive Piece.Appends : Piece → Prop where
  | intro {tree : Node} {emit : Spot → Emit} {parts : List Piece}
      (own : ∀ spot, Emit.Appends (emit spot)) (below : ∀ p ∈ parts, Piece.Appends p) :
      Piece.Appends (.mk tree emit parts)

/-- All of the pieces only append. -/
class Piece.AllAppend (ps : List Piece) : Prop where
  each : ∀ p ∈ ps, p.Appends

namespace Piece

instance {p : Piece} [h : p.Appends] (spot : Spot) : Emit.Appends (p.emit spot) := by
  obtain ⟨own, -⟩ := h
  exact own spot

instance {p : Piece} [p.Appends] : Emit.Appends p.plain := inferInstanceAs (Emit.Appends (p.emit _))

instance {p : Piece} [p.Appends] : Emit.Appends p.item := inferInstanceAs (Emit.Appends (p.emit _))

instance {p : Piece} [p.Appends] {before : Emit} [Emit.Appends before] :
    Emit.Appends (p.after before) := by
  unfold after; infer_instance

instance : Appends absent := ⟨fun _ => inferInstance, fun _ member => nomatch member⟩

instance {p : Piece} [h : p.Appends] : AllAppend p.parts := by
  obtain ⟨-, below⟩ := h
  exact ⟨below⟩

@[simp] theorem allAppend_cons {p : Piece} {ps : List Piece} :
    AllAppend (p :: ps) ↔ p.Appends ∧ AllAppend ps := by
  constructor
  · rintro ⟨each⟩
    exact ⟨each p (by simp), ⟨fun q member => each q (by simp [member])⟩⟩
  · rintro ⟨first, ⟨rest⟩⟩
    refine ⟨fun q member => ?_⟩
    rcases List.mem_cons.mp member with rfl | later
    · exact first
    · exact rest q later

instance {c : Prop} [Decidable c] {p q : Piece} [p.Appends] [q.Appends] :
    Appends (if c then p else q) := by
  split <;> infer_instance

instance (ps : List Piece) [all : AllAppend ps] (i : Nat) : Appends (ps.getD i absent) := by
  rw [List.getD_eq_getElem?_getD]
  cases found : ps[i]? with
  | none => exact inferInstanceAs (Appends absent)
  | some p => exact all.each p (List.mem_of_getElem? found)

instance {p : Piece} [p.Appends] (i : Nat) : Appends (p.part i) :=
  inferInstanceAs (Appends (p.parts.getD i absent))

instance (ps : List Piece) [all : AllAppend ps] (n : Nat) : AllAppend (ps.drop n) :=
  ⟨fun p member => all.each p (List.mem_of_mem_drop member)⟩

instance (ps : List Piece) [all : AllAppend ps] (keep : Piece → Bool) :
    AllAppend (ps.takeWhile keep) :=
  ⟨fun p member => all.each p (List.takeWhile_subset _ member)⟩

instance (ps : List Piece) [all : AllAppend ps] (keep : Piece → Bool) :
    AllAppend (ps.filter keep) :=
  ⟨fun p member => all.each p (List.mem_filter.mp member).1⟩

/-- A way to print pieces that only appends if the piece does. -/
class Way (f : Piece → Emit) : Prop where
  appends : ∀ p : Piece, p.Appends → Emit.Appends (f p)

instance : Way plain := ⟨fun _ _ => inferInstance⟩

instance : Way item := ⟨fun _ _ => inferInstance⟩

instance (spot : Spot) : Way fun p => p.emit spot := ⟨fun _ _ => inferInstance⟩

instance Way.forM {f : Piece → Emit} [way : Way f] {ps : List Piece} [all : AllAppend ps] :
    Emit.Appends (ps.forM f) := by
  revert all
  induction ps with
  | nil => exact inferInstanceAs (Emit.Appends (pure () : Emit))
  | cons p ps ih =>
    intro all
    obtain ⟨first, _⟩ := allAppend_cons.mp all
    have := way.appends p first
    exact inferInstanceAs (Emit.Appends (f p >>= fun _ => ps.forM f))

instance {f : Piece → Emit} [way : Way f] {ps : List Piece} [all : AllAppend ps] :
    Emit.Appends (Emit.list f ps) := by
  revert all
  fun_induction Emit.list f ps with
  | case1 => exact inferInstance
  | case2 p =>
    intro all
    exact way.appends p (allAppend_cons.mp all).1
  | case3 p q rest ih =>
    intro all
    obtain ⟨first, _⟩ := allAppend_cons.mp all
    have := way.appends p first
    infer_instance

end Piece

/-! ## Expressions -/

namespace Print

open Piece (AllAppend allAppend_cons)

section Expressions

variable {p q r : Piece} [p.Appends] [q.Appends] [r.Appends] {ps : List Piece} [AllAppend ps]

instance (pattern flags : String) : Appends (regexp pattern flags) := by
  unfold regexp
  refine Appends.seq fun o => ?_
  dsimp only
  split <;> infer_instance

instance (qs : List Quasi) (es : List Piece) [all : AllAppend es] :
    Appends (templateFrom qs es) := by
  revert all
  fun_induction templateFrom qs es with
  | case1 => exact inferInstance
  | case2 q qs ih => exact inferInstance
  | case3 q qs e es ih =>
    intro all
    obtain ⟨_, _⟩ := allAppend_cons.mp all
    infer_instance

instance (qs : List Quasi) : Appends (template qs ps) := by unfold template; infer_instance

instance (spot : Spot) : Appends (object p spot) := by unfold object; infer_instance

instance (isOptional : Bool) : Appends (dot isOptional) := by unfold dot; dsimp only; infer_instance

instance (name : String) (isOptional : Bool) (spot : Spot) :
    Appends (member name isOptional p spot) := by
  unfold member; infer_instance

instance (name : String) (isOptional : Bool) (spot : Spot) :
    Appends (privateMember name isOptional p spot) := by
  unfold privateMember; infer_instance

instance (isOptional : Bool) (spot : Spot) : Appends (index isOptional p q spot) := by
  unfold index; dsimp only; infer_instance

instance (computed : Bool) : Appends (key p computed) := by
  have inner : Appends (match p.form with
      | .string v s => Emit.quoted v s false
      | _ => p.item) := by
    split <;> infer_instance
  unfold key; dsimp only; infer_instance

instance (first : Bool) (as : List Piece) [all : AllAppend as] :
    Appends (argumentLines first as) := by
  revert all
  induction as generalizing first with
  | nil => exact inferInstanceAs (Appends (pure () : Emit))
  | cons a as ih =>
    intro all
    obtain ⟨_, _⟩ := allAppend_cons.mp all
    unfold argumentLines; dsimp only; infer_instance

instance (close : Nat) : Appends (arguments close ps) := by
  unfold arguments; dsimp only; infer_instance

instance : Appends pureMark := by unfold pureMark; infer_instance

instance (isDefault isStatement : Bool) : Appends (moveStart isDefault isStatement) := by
  unfold moveStart; infer_instance

instance (isOptional pure : Bool) (span : Span) (spot : Spot) :
    Appends (call isOptional pure span p q ps spot) := by
  unfold call; dsimp only; infer_instance

instance (pure : Bool) (span : Span) (spot : Spot) :
    Appends (construct pure span p ps spot) := by
  unfold construct; dsimp only; infer_instance

instance (lines : Bool) : Appends (importSource lines p) := by unfold importSource; infer_instance

instance (lines : Bool) : Appends (importOptions lines p) := by
  unfold importOptions; dsimp only; infer_instance

instance (phase : Option String) (span : Span) (spot : Spot) :
    Appends (importCall phase span p q spot) := by
  unfold importCall; dsimp only; infer_instance

instance (op : UnaryOp) (spot : Spot) : Appends (unary op p spot) := by
  unfold unary; dsimp only; infer_instance

instance (op : UpdateOp) (before : Bool) (spot : Spot) : Appends (update op before p spot) := by
  unfold update; dsimp only; infer_instance

instance (needed : Bool) (strengths : Strength × Strength) {mark : Emit} [Appends mark]
    (spot : Spot) : Appends (infixed needed p q strengths mark spot) := by
  unfold infixed; dsimp only; infer_instance

instance (op : BinaryOp) (spot : Spot) : Appends (binary op p q spot) := by
  unfold binary; dsimp only; infer_instance

instance (op : LogicalOp) (spot : Spot) : Appends (logical op p q spot) := by
  unfold logical; dsimp only; infer_instance

instance (spot : Spot) : Appends (privateIn p q spot) := by unfold privateIn; infer_instance

instance (spot : Spot) : Appends (conditional p q r spot) := by
  unfold conditional; dsimp only; infer_instance

instance (op : AssignOp) (spot : Spot) : Appends (assign op p q spot) := by
  unfold assign; dsimp only; infer_instance

instance (spot : Spot) : Appends (sequence ps spot) := by unfold sequence; infer_instance

instance (spot : Spot) : Appends (awaitExpression p spot) := by
  unfold awaitExpression; infer_instance

instance (delegate : Bool) (spot : Spot) : Appends (yieldExpression delegate p spot) := by
  unfold yieldExpression; dsimp only; infer_instance

instance (multi first : Bool) (items : List Piece) [all : AllAppend items] :
    Appends (arrayItems multi first items) := by
  revert all
  induction items generalizing first with
  | nil => exact inferInstanceAs (Appends (pure () : Emit))
  | cons p items ih =>
    intro all
    obtain ⟨_, _⟩ := allAppend_cons.mp all
    unfold arrayItems; dsimp only
    (repeat' split) <;> infer_instance

instance : Appends (array ps) := by unfold array; dsimp only; infer_instance

instance (spot : Spot) (multi first : Bool) (items : List Piece) [all : AllAppend items] :
    Appends (objectItems spot multi first items) := by
  revert all
  induction items generalizing first with
  | nil => exact inferInstanceAs (Appends (pure () : Emit))
  | cons p items ih =>
    intro all
    obtain ⟨_, _⟩ := allAppend_cons.mp all
    unfold objectItems; dsimp only; infer_instance

instance (spot : Spot) : Appends (objectBraces ps spot) := by
  unfold objectBraces; dsimp only; infer_instance

instance (start : Nat) (spot : Spot) : Appends (objectLiteral start ps spot) := by
  unfold objectLiteral; dsimp only; infer_instance

instance : Appends (spread p) := by unfold spread; infer_instance

instance (traits : PropertyTraits) : Appends (property traits p q) := by
  unfold property; dsimp only; infer_instance

instance (spot : Spot) : Appends (asType p q spot) := by unfold asType; infer_instance

instance (spot : Spot) : Appends (satisfies p q spot) := by unfold satisfies; infer_instance

instance (spot : Spot) : Appends (assertion p q spot) := by
  unfold assertion; dsimp only
  refine .seq fun _ => ?_
  split <;> infer_instance

instance (spot : Spot) : Appends (nonNull p spot) := by unfold nonNull; dsimp only; infer_instance

instance (spot : Spot) : Appends (instantiation p q spot) := by
  unfold instantiation; infer_instance

end Expressions

/-! ## Elements -/

section Elements

variable {p q : Piece} [p.Appends] [q.Appends] {ps : List Piece} [all : AllAppend ps]

instance (value : String) : Appends (attributeText value) := by
  unfold attributeText; dsimp only; infer_instance

instance : Appends (elementAttribute p q) := by unfold elementAttribute; infer_instance

instance : Appends (container p) := by unfold container; infer_instance

instance : Appends (spreadContainer p) := by unfold spreadContainer; infer_instance

instance : Appends (elementAttributes ps) := by
  refine @Piece.Way.forM _ ⟨fun a _ => ?_⟩ _ _
  dsimp only
  split <;> infer_instance

instance : Appends (element ps) := by
  unfold element
  split
  · simp only [allAppend_cons] at all
    obtain ⟨_, _, _, _, _, -⟩ := all
    dsimp only; infer_instance
  · infer_instance

instance : Appends (fragment ps) := by unfold fragment; infer_instance

end Elements

/-! ## Functions and classes -/

section Functions

variable {p q r : Piece} [p.Appends] [q.Appends] [r.Appends] {ps : List Piece} [all : AllAppend ps]

instance (isOptional : Bool) : Appends (binding isOptional p q) := by
  unfold binding; dsimp only; infer_instance

instance (computed : Bool) : Appends (bindingProperty computed p q) := by
  unfold bindingProperty; dsimp only; infer_instance

instance (items : List Piece) [all : AllAppend items] : Appends (propertyItems items) := by
  revert all
  fun_induction propertyItems items with
  | case1 => exact inferInstance
  | case2 p =>
    intro all
    obtain ⟨_, _⟩ := allAppend_cons.mp all
    infer_instance
  | case3 p q rest ih =>
    intro all
    obtain ⟨_, _⟩ := allAppend_cons.mp all
    infer_instance

instance : Appends (objectPattern ps) := by unfold objectPattern; dsimp only; infer_instance

instance (items : List Piece) [all : AllAppend items] : Appends (holedItems items) := by
  revert all
  fun_induction holedItems items with
  | case1 => exact inferInstance
  | case2 p =>
    intro all
    obtain ⟨_, _⟩ := allAppend_cons.mp all
    split <;> infer_instance
  | case3 p q rest ih =>
    intro all
    obtain ⟨_, _⟩ := allAppend_cons.mp all
    infer_instance

instance : Appends (arrayPattern ps) := by
  unfold arrayPattern; dsimp only
  split <;> infer_instance

instance : Appends (withDefault p q) := by unfold withDefault; infer_instance

instance : Appends (rest p) := by unfold rest; infer_instance

instance : Appends (objectTarget ps) := by unfold objectTarget; infer_instance

instance : Appends (targetShorthand p q) := by unfold targetShorthand; infer_instance

instance (computed : Bool) : Appends (targetProperty computed p q) := by
  unfold targetProperty; dsimp only; infer_instance

instance : Appends (decoratorList ps) := by
  have : Piece.Way fun d => d.plain >>= fun _ => Emit.space := ⟨fun _ _ => inferInstance⟩
  unfold decoratorList; infer_instance

instance : Appends (decorator p) := by unfold decorator; infer_instance

instance (present : Bool) (w : String) : Appends (modifier present w) := by
  unfold modifier; infer_instance

instance (a : Option Access) : Appends (access a) := by
  cases a <;> unfold access <;> infer_instance

instance (a : Option Access) (override readonly : Bool) :
    Appends (parameter a override readonly ps p) := by
  unfold parameter; infer_instance

instance : Appends (thisParameter p) := by unfold thisParameter; infer_instance

instance : Appends (parameters p q) := by unfold parameters; dsimp only; infer_instance

instance (span : Span) (isEmpty : Bool) {inner : Emit} [Appends inner] :
    Appends (body span isEmpty inner) := by
  unfold body; dsimp only; infer_instance

instance (marked : Bool) : Appends (inert marked) := by unfold inert; infer_instance

instance (present : Bool) (w : String) : Appends (leading present w) := by
  unfold leading; infer_instance

instance (traits : FunctionTraits) : Appends (functionWords traits) := by
  unfold functionWords; infer_instance

instance (spot : Spot) : Appends (functionTail ps spot) := by
  unfold functionTail
  split
  · simp only [allAppend_cons] at all
    obtain ⟨_, _, _, _, _, _, -⟩ := all
    dsimp only; infer_instance
  · infer_instance

instance (traits : FunctionTraits) (spot : Spot) : Appends (function traits ps spot) := by
  unfold function; dsimp only; infer_instance

instance (withThis : Bool) (spot : Spot) : Appends (methodTail ps withThis spot) := by
  unfold methodTail
  split
  · simp only [allAppend_cons] at all
    obtain ⟨_, _, _, _, _, _, -⟩ := all
    infer_instance
  · infer_instance

instance : Appends (methodMarks p) := by
  unfold methodMarks
  split <;> infer_instance

instance (traits : PropertyTraits) (spot : Spot) : Appends (objectMethod traits p q spot) := by
  unfold objectMethod; dsimp only
  cases traits.kind <;> infer_instance

instance (traits : PropertyTraits) (spot : Spot) : Appends (objectMember traits p q spot) := by
  unfold objectMember
  split <;> infer_instance

instance (bare : Bool) (spot : Spot) : Appends (arrowTail bare ps spot) := by
  unfold arrowTail
  split
  · simp only [allAppend_cons] at all
    obtain ⟨_, _, _, _, -⟩ := all
    dsimp only; infer_instance
  · infer_instance

instance (traits : ArrowTraits) (spot : Spot) : Appends (arrow traits ps spot) := by
  unfold arrow; infer_instance

instance (t : MemberTraits) (spot : Spot) : Appends (method t ps p q spot) := by
  unfold method; dsimp only
  cases t.kind <;> infer_instance

instance (t : MemberTraits) : Appends (fieldMarks t) := by unfold fieldMarks; infer_instance

instance (t : MemberTraits) : Appends (field t ps p q r) := by
  unfold field; dsimp only; infer_instance

instance (spot : Spot) : Appends (members ps spot) := by
  refine @Piece.Way.forM _ ⟨fun m _ => ?_⟩ _ _
  refine .seq fun _ => .seq fun _ => .seq fun _ => .seq fun _ => ?_
  split <;> infer_instance

instance : Appends (classBases p q ps) := by unfold classBases; infer_instance

instance : Appends (className p q) := by unfold className; infer_instance

instance (traits : ClassTraits) (spot : Spot) : Appends (classDef traits ps spot) := by
  unfold classDef
  split
  · simp only [allAppend_cons] at all
    obtain ⟨_, _, _, _, _, _, _, -⟩ := all
    infer_instance
  · infer_instance

end Functions

/-! ## Types -/

section Types

variable {p q r t : Piece} [p.Appends] [q.Appends] [r.Appends] [t.Appends] {ps : List Piece}
  [all : AllAppend ps]

instance (first : Bool) (items : List Piece) [all : AllAppend items] :
    Appends (typeLines first items) := by
  revert all
  induction items generalizing first with
  | nil => exact inferInstanceAs (Appends (pure () : Emit))
  | cons p items ih =>
    intro all
    obtain ⟨_, _⟩ := allAppend_cons.mp all
    unfold typeLines; dsimp only; infer_instance

instance : Appends (typeParameters ps) := by
  unfold typeParameters; dsimp only
  split
  · infer_instance
  · obtain ⟨_, -⟩ := allAppend_cons.mp all
    infer_instance
  · infer_instance

instance (name : String) (isConst isIn isOut : Bool) :
    Appends (typeParameter name isConst isIn isOut p q) := by
  unfold typeParameter; dsimp only; infer_instance

instance : Appends (typeArguments ps) := by unfold typeArguments; infer_instance

instance : Appends (typeQuery p q) := by unfold typeQuery; infer_instance

instance (qs : List Quasi) : Appends (templateType qs ps) := by
  unfold templateType; infer_instance

instance (mark : String) (items : List Piece) [all : AllAppend items] :
    Appends (joined mark items) := by
  revert all
  fun_induction joined mark items with
  | case1 => exact inferInstance
  | case2 p =>
    intro all
    obtain ⟨_, _⟩ := allAppend_cons.mp all
    infer_instance
  | case3 p q rest ih =>
    intro all
    obtain ⟨_, _⟩ := allAppend_cons.mp all
    infer_instance

instance (label : String) (isOptional : Bool) : Appends (namedElement label isOptional p) := by
  unfold namedElement; dsimp only; infer_instance

instance : Appends (conditionalType ps) := by
  unfold conditionalType
  split
  · simp only [allAppend_cons] at all
    obtain ⟨_, _, _, _, -⟩ := all
    infer_instance
  · infer_instance

instance (name : String) : Appends (inferType name p) := by unfold inferType; infer_instance

instance : Appends (functionType p q r t) := by unfold functionType; infer_instance

instance (isAbstract : Bool) : Appends (constructorType isAbstract p q r) := by
  unfold constructorType; dsimp only; infer_instance

instance (mark : MappedMark) : Appends (mappedSign mark) := by
  cases mark <;> unfold mappedSign <;> infer_instance

instance (name : String) (isOptional readonly : MappedMark) :
    Appends (mappedType name isOptional readonly p q r) := by
  unfold mappedType; dsimp only; infer_instance

instance : Appends (indexedType p q) := by unfold indexedType; infer_instance

instance : Appends (importType p q r t) := by unfold importType; infer_instance

instance (name : String) (asserts : Bool) : Appends (typePredicate name asserts p) := by
  unfold typePredicate; dsimp only; infer_instance

instance (spot : Spot) : Appends (typeMembers ps spot) := by
  have : Piece.Way fun m => Emit.commentsAt m.start >>= fun _ => Emit.indent >>= fun _ =>
      m.emit spot >>= fun _ => Emit.semicolon >>= fun _ => Emit.softNewline :=
    ⟨fun _ _ => inferInstance⟩
  unfold typeMembers; infer_instance

instance (computed : Bool) (spot : Spot) : Appends (memberKey p computed spot) := by
  unfold memberKey
  split <;> infer_instance

instance (computed isOptional readonly : Bool) (spot : Spot) :
    Appends (propertySignature computed isOptional readonly p q spot) := by
  unfold propertySignature; dsimp only; infer_instance

instance : Appends (signature p q r t) := by unfold signature; infer_instance

instance (kind : MethodKind) (computed isOptional : Bool) (spot : Spot) :
    Appends (methodSignature kind computed isOptional ps spot) := by
  unfold methodSignature
  split
  · simp only [allAppend_cons] at all
    obtain ⟨_, _, _, _, _, -⟩ := all
    cases kind <;> infer_instance
  · infer_instance

instance : Appends (constructSignature p q r) := by unfold constructSignature; infer_instance

instance (name : String) (readonly : Bool) : Appends (indexSignature name readonly p q) := by
  unfold indexSignature; dsimp only; infer_instance

end Types

/-! ## Statements -/

section Statements

variable {p q r t : Piece} [p.Appends] [q.Appends] [r.Appends] [t.Appends] {ps : List Piece}
  [all : AllAppend ps]

instance (e : Ending) : Appends (finish e) := by cases e <;> unfold finish <;> infer_instance

instance : Appends (inertLine p) := by
  unfold inertLine
  split <;> infer_instance

instance (spot : Spot) : Appends (statement p spot) := by
  unfold statement; dsimp only; infer_instance

instance (spot : Spot) : Appends (statementList ps spot) := by
  have : Piece.Way fun p => Emit.owedSemicolon >>= fun _ => statement p spot :=
    ⟨fun _ _ => inferInstance⟩
  unfold statementList; infer_instance

instance (raw : String) : Appends (directive raw) := by unfold directive; dsimp only; infer_instance

theorem bareString_appends {e : Piece} (found : bareString p = some e) : e.Appends := by
  unfold bareString at found
  split at found
  next parts =>
    have all : AllAppend p.parts := inferInstance
    rw [parts] at all
    split at found
    · obtain rfl := Option.some.inj found
      exact (allAppend_cons.mp all).1
    · cases found
  · cases found

instance (afterDirective : Bool) (spot : Spot) :
    Appends (openingStatements afterDirective ps spot) := by
  unfold openingStatements
  cases ps with
  | nil => infer_instance
  | cons p rest =>
    obtain ⟨_, _⟩ := allAppend_cons.mp all
    refine .seq fun o => ?_
    split
    · have := bareString_appends ‹bareString p = some _›
      infer_instance
    · infer_instance

instance : Appends (directives ps) := by
  have : Piece.Way fun d => Emit.indent >>= fun _ => d.plain >>= fun _ => Emit.semicolon >>=
      fun _ => Emit.softNewline := ⟨fun _ _ => inferInstance⟩
  unfold directives; infer_instance

instance (spot : Spot) : Appends (directivesAndStatements ps spot) := by
  unfold directivesAndStatements; infer_instance

instance (spot : Spot) : Appends (block ps spot) := by unfold block; infer_instance

instance (apart : Bool) (spot : Spot) : Appends (bodyOf p apart spot) := by
  unfold bodyOf; dsimp only
  split <;> infer_instance

instance (span : Span) (spot : Spot) : Appends (functionBody span ps spot) := by
  unfold functionBody; infer_instance

instance (spot : Spot) : Appends (ifStatement p q r spot) := by
  unfold ifStatement; dsimp only; infer_instance

instance (spot : Spot) : Appends (caseClause p ps spot) := by
  unfold caseClause
  rcases ps with _ | ⟨q, _ | ⟨r, rest⟩⟩
  case cons.nil =>
    obtain ⟨_, -⟩ := allAppend_cons.mp all
    dsimp only; infer_instance
  all_goals dsimp only; infer_instance

instance (spot : Spot) : Appends (switchStatement p ps spot) := by
  unfold switchStatement; infer_instance

instance (spot : Spot) : Appends (forStatement p q r t spot) := by
  unfold forStatement; infer_instance

instance : Appends (loopTarget p) := by unfold loopTarget; dsimp only; infer_instance

instance (spot : Spot) : Appends (forIn p q r spot) := by unfold forIn; infer_instance

instance (isAwait : Bool) (spot : Spot) : Appends (forOf isAwait p q r spot) := by
  unfold forOf; dsimp only; infer_instance

instance (spot : Spot) : Appends (whileStatement p q spot) := by
  unfold whileStatement; infer_instance

instance (spot : Spot) : Appends (doWhile p q spot) := by
  unfold doWhile; dsimp only
  split <;> infer_instance

instance (w : String) : Appends (keywordStatement w p) := by
  unfold keywordStatement; infer_instance

instance (w : String) (label : Option String) : Appends (jump w label) := by
  cases label <;> unfold jump <;> infer_instance

instance (label : String) (spot : Spot) : Appends (labeled label p spot) := by
  unfold labeled; infer_instance

instance : Appends (expressionStatement p) := by unfold expressionStatement; infer_instance

instance (kind : VariableKind) (declare : Bool) (spot : Spot) :
    Appends (variableList kind declare ps spot) := by
  unfold variableList; dsimp only; infer_instance

instance (definite : Bool) (spot : Spot) : Appends (declarator definite p q spot) := by
  unfold declarator; dsimp only
  split <;> infer_instance

instance (start : Nat) (spot : Spot) : Appends (catchClause start p q spot) := by
  unfold catchClause; dsimp only; infer_instance

instance (spot : Spot) : Appends (tryStatement p q r spot) := by
  unfold tryStatement; dsimp only; infer_instance

instance (spot : Spot) : Appends (withStatement p q spot) := by
  unfold withStatement; infer_instance

end Statements

/-! ## Modules and declarations -/

section Modules

variable {p q r : Piece} [p.Appends] [q.Appends] [r.Appends] {ps qs : List Piece}
  [all : AllAppend ps] [AllAppend qs]

instance (m : ModuleName) : Appends (moduleName m) := by
  cases m <;> unfold moduleName <;> infer_instance

instance (c : Option AttributeClause) : Appends (attributeClause c) := by
  cases c <;> unfold attributeClause <;> dsimp only <;> infer_instance

instance (imported : ModuleName) (name : String) (typeOnly : Bool) :
    Appends (importName imported name typeOnly) := by
  unfold importName; dsimp only; infer_instance

instance : Appends (importNames ps) := by
  unfold importNames; dsimp only
  refine @Appends.bind _ _ _ _ (@Emit.Appends.forIn _ _ _ (fun x _ => ?_) _ _) inferInstance
  split <;> infer_instance

instance (source : String) (clause : Option AttributeClause) :
    Appends (emptyImport source clause) := by
  unfold emptyImport; dsimp only; infer_instance

instance (source : String) (surrogates typeOnly : Bool) (phase : Option String) (hasNames : Bool)
    (clause : Option AttributeClause) :
    Appends (importDecl source surrogates typeOnly phase hasNames clause ps) := by
  cases phase <;> unfold importDecl <;> dsimp only <;> infer_instance

instance (name : String) (typeOnly : Bool) : Appends (importEquals name typeOnly p) := by
  unfold importEquals; dsimp only; infer_instance

instance (source : String) (surrogates : Bool) : Appends (externalModule source surrogates) := by
  unfold externalModule; infer_instance

instance (inner exported : ModuleName) (typeOnly : Bool) :
    Appends (exportName inner exported typeOnly) := by
  unfold exportName; dsimp only; infer_instance

instance : Appends (exportMark p) := by
  unfold exportMark
  split <;> infer_instance

instance (source : Option (String × Bool)) (typeOnly : Bool) (spot : Spot) :
    Appends (exportNamed source typeOnly p ps spot) := by
  unfold exportNamed; dsimp only
  (repeat' split) <;> infer_instance

instance (exported : Option ModuleName) (source : String) (surrogates typeOnly : Bool)
    (clause : Option AttributeClause) :
    Appends (exportAll exported source surrogates typeOnly clause) := by
  cases exported <;> unfold exportAll <;> dsimp only <;> infer_instance

instance : Appends (exportDefault.value p) := by unfold exportDefault.value; infer_instance

instance (spot : Spot) : Appends (exportDefault p spot) := by
  unfold exportDefault
  refine .seq fun _ => .seq fun _ => .seq fun _ => ?_
  split <;> infer_instance

instance (declare : Bool) : Appends (declared declare) := by unfold declared; infer_instance

instance : Appends (interface p q ps qs) := by unfold interface; dsimp only; infer_instance

instance : Appends (heritage p q) := by unfold heritage; infer_instance

instance (declare : Bool) : Appends (typeAlias declare p q r) := by unfold typeAlias; infer_instance

instance (spot : Spot) (items : List Piece) [all : AllAppend items] :
    Appends (enumMembers spot items) := by
  revert all
  induction items with
  | nil => exact inferInstanceAs (Appends (pure () : Emit))
  | cons p items ih =>
    intro all
    obtain ⟨_, _⟩ := allAppend_cons.mp all
    unfold enumMembers; dsimp only; infer_instance

instance (isConst declare : Bool) (spot : Spot) :
    Appends (enumDecl isConst declare p ps spot) := by
  unfold enumDecl; dsimp only; infer_instance

instance (computed : Bool) (spot : Spot) : Appends (enumMember computed p q spot) := by
  unfold enumMember; dsimp only; infer_instance

instance (spot : Spot) : Appends (moduleBlock ps spot) := by unfold moduleBlock; infer_instance

instance (keyword : String) (declare : Bool) (spot : Spot) :
    Appends (moduleDecl keyword declare p q spot) := by
  unfold moduleDecl; dsimp only
  (repeat' split) <;> infer_instance

instance (declare : Bool) (spot : Spot) : Appends (globalDecl declare p spot) := by
  unfold globalDecl; infer_instance

end Modules

end Print

/-! ## Trees -/

instance (form : Form) (span : Span) (parts : List Piece) [Piece.AllAppend parts] (spot : Spot) :
    Appends (form.emit span parts spot) := by
  cases form
  case program hashbang elements =>
    cases hashbang <;> (unfold Form.emit; dsimp only; infer_instance)
  all_goals (unfold Form.emit; dsimp only; infer_instance)

theorem Node.mem_pieces {p : Piece} {cs : List Node} :
    p ∈ pieces cs ↔ ∃ c ∈ cs, c.piece = p := by
  induction cs with
  | nil => simp [pieces]
  | cons c cs ih => simp [pieces, ih, eq_comm]

/-- Every tree is printed by appending. -/
instance Node.piece_appends (n : Node) : n.piece.Appends := by
  induction n using Node.induction_on with
  | step form place spans cs ih =>
    have : Piece.AllAppend (pieces cs) := by
      refine ⟨fun p member => ?_⟩
      obtain ⟨c, inside, rfl⟩ := mem_pieces.mp member
      exact ih c inside
    exact .intro (fun spot => inferInstance) Piece.AllAppend.each

end Splice
