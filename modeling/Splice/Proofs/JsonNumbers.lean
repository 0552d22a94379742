import Mathlib.Data.Nat.Digits.Defs
import Mathlib.Data.Nat.Find
import Mathlib.Logic.Function.Iterate
import Splice.Config.Document

/-!
# Numbers in JSON texts

What a number stands for is told by its digits alone: as many as fit into sixty-four bits are kept, and
the number that they stand for is scaled by the power of ten that the point, the exponent and the
dropped digits make up. A number is read to its end, whatever follows it that could not be a part of it,
and it is read as what it stands for. There is only one reason to refuse it: that it is too large.
-/
namespace Splice

namespace Json

/-! ## What digits stand for -/

/-- The number that decimal digits stand for. -/
def digitsValue (ds : List Char) : Nat := Nat.ofDigits 10 (ds.reverse.map fun c => c.toNat - 48)

/-- The digits that are kept after others: as many as stand, together with these, for a number of
sixty-four bits. -/
def kept (before ds : List Char) : List Char :=
  ds.take (Nat.findGreatest (fun k => digitsValue (before ++ ds.take k) < 2 ^ 64) ds.length)

/-- The double next to a power of ten. -/
def tens (e : Nat) : Double := .ofNat (10 ^ e)

/-- A double divided by a power of ten, and by the largest one that a double can hold before as often as
there is more to divide by. -/
def quotient (x : Double) (e : Nat) : Double :=
  ((·.div (tens 308))^[(e - 1) / 308] x).div (tens (e - 308 * ((e - 1) / 308)))

/-- The double for `n · 10 ^ e`, where both are rounded before they are multiplied or divided; none if
it is too large. -/
def scaled? (n : Nat) (e : Int) : Option Double :=
  if n = 0 then some .zero
  else if e < 0 then some (quotient (.ofNat n) e.natAbs)
  else if e ≤ 308 ∧ ((Double.ofNat n).mul (tens e.toNat)).isInfinite = false then
    some ((Double.ofNat n).mul (tens e.toNat))
  else none

/-- The double for `n` with an exponent besides the one that the digits make up. An exponent of more
than thirty-one bits decides alone. -/
def shifted? (n : Nat) (shift : Int) : (exponent : Option Int) → Option Double
  | none => scaled? n shift
  | some e =>
    if e.natAbs < 2 ^ 31 then scaled? n (shift + e)
    else if 0 < e ∧ n ≠ 0 then none
    else some .zero

/-- What a number stands for, by its digits before the point and after it and by its exponent. Each
dropped digit before the point counts as a ten, each kept one after it as a tenth. -/
def numberValue? (whole fraction : List Char) (exponent : Option Int) : Option Double :=
  let before := kept [] whole
  let after := kept before fraction
  if fraction = [] ∧ exponent = none ∧ before = whole then some (.ofNat (digitsValue whole))
  else
    shifted? (digitsValue (before ++ after)) ((whole.length - before.length : Nat) - after.length)
      exponent

/-! ## How numbers are written -/

/-- One digit or more. -/
inductive Digits : List Char → Prop where
  | mk {d : Char} {ds : List Char} : d.isDigit = true → (∀ c ∈ ds, c.isDigit = true) →
    Digits (d :: ds)

/-- The digits before the point; only the zero begins with one. -/
inductive WholeText : List Char → Prop where
  | zero : WholeText ['0']
  | digits {ds : List Char} : Digits ds → ds.head? ≠ some '0' → WholeText ds

/-- The point and the digits after it, or neither. -/
inductive FractionText : (digits text : List Char) → Prop where
  | none : FractionText [] []
  | digits {ds : List Char} : Digits ds → FractionText ds ('.' :: ds)

/-- An exponent, or none. -/
inductive ExponentText : Option Int → (text : List Char) → Prop where
  | none : ExponentText none []
  | positive {mark : Char} {sign ds : List Char} : mark = 'e' ∨ mark = 'E' → sign = [] ∨ sign = ['+'] →
    Digits ds → ExponentText (some (digitsValue ds)) (mark :: (sign ++ ds))
  | negative {mark : Char} {ds : List Char} : mark = 'e' ∨ mark = 'E' → Digits ds →
    ExponentText (some (-digitsValue ds)) (mark :: '-' :: ds)

/-- A number without its sign, and what it stands for. -/
inductive NumberText : Option Double → (text : List Char) → Prop where
  | mk {whole fraction f x : List Char} {exponent : Option Int} : WholeText whole →
    FractionText fraction f → ExponentText exponent x →
    NumberText (numberValue? whole fraction exponent) (whole ++ (f ++ x))

variable {ds s r : List Char} {d : Char}

theorem Digits.all (digits : Digits ds) : ∀ d ∈ ds, d.isDigit = true := by
  obtain ⟨digit, digits⟩ := digits
  exact List.forall_mem_cons.mpr ⟨digit, digits⟩

theorem WholeText.isDigits (whole : WholeText ds) : Digits ds := by
  cases whole with
  | zero => exact ⟨by decide, by simp⟩
  | digits digits => exact digits

/-- A number begins with a digit. -/
theorem NumberText.head {value : Option Double} {text : List Char} (written : NumberText value text) :
    ∃ d s, text = d :: s ∧ d.isDigit = true := by
  obtain ⟨whole, -, -⟩ := written
  obtain ⟨digit, -⟩ := whole.isDigits
  exact ⟨_, _, rfl, digit⟩

/-- No digit comes next. -/
def NoDigit (s : List Char) : Prop := ∀ c ∈ s.head?, c.isDigit = false

/-- Nothing comes next that could be a part of a number. -/
def NoNumber (s : List Char) : Prop :=
  ∀ c ∈ s.head?, c.isDigit = false ∧ c ≠ '.' ∧ c ≠ 'e' ∧ c ≠ 'E'

theorem NoNumber.noDigit (ends : NoNumber s) : NoDigit s := fun c first => (ends c first).1

theorem noDigit_of_exponent {e : Option Int} {x : List Char} (text : ExponentText e x)
    (ends : NoNumber r) : NoDigit (x ++ r) := by
  cases text with
  | none => exact ends.noDigit
  | positive mark | negative mark =>
    intro c first
    cases first
    rcases mark with rfl | rfl <;> decide

theorem noDigit_of_fraction {f x : List Char} {e : Option Int} (fraction : FractionText ds f)
    (exponent : ExponentText e x) (ends : NoNumber r) : NoDigit (f ++ (x ++ r)) := by
  have behind := noDigit_of_exponent exponent ends
  cases fraction with
  | none => exact behind
  | digits =>
    intro c first
    cases first
    decide

theorem dropWhile_digits (digits : ∀ d ∈ ds, d.isDigit = true) (ends : NoDigit s) :
    (ds ++ s).takeWhile Char.isDigit = ds ∧ (ds ++ s).dropWhile Char.isDigit = s := by
  rw [List.takeWhile_append_of_pos digits, List.dropWhile_append_of_pos digits]
  cases s with
  | nil => simp
  | cons c s =>
    have other := ends c rfl
    simp [other]

/-! ## Digits one after the other -/

@[simp] theorem digitsValue_nil : digitsValue [] = 0 := rfl

/-- One more digit moves the others up by one place. -/
theorem digitsValue_concat (ds : List Char) (d : Char) :
    digitsValue (ds ++ [d]) = digitsValue ds * 10 + (d.toNat - 48) := by
  simp only [digitsValue, List.reverse_append, List.reverse_singleton, List.singleton_append,
    List.map_cons, Nat.ofDigits_cons]
  ring

theorem digitsValue_le_append (ds more : List Char) : digitsValue ds ≤ digitsValue (ds ++ more) := by
  induction more generalizing ds with
  | nil => rw [List.append_nil]
  | cons d more ih =>
    have rest := ih (ds ++ [d])
    rw [digitsValue_concat, List.append_assoc, List.singleton_append] at rest
    omega

theorem length_sub_kept (before ds : List Char) :
    ds.length - (kept before ds).length = 0 ↔ kept before ds = ds := by
  rw [Nat.sub_eq_zero_iff_le]
  constructor
  · exact (List.take_prefix _ _).eq_of_length_le
  · intro all
    rw [all]

/-- The next digit is kept if it fits, and nothing after one that does not. -/
theorem kept_cons (before : List Char) (d : Char) (ds : List Char) :
    kept before (d :: ds) =
      if digitsValue (before ++ [d]) < 2 ^ 64 then d :: kept (before ++ [d]) ds else [] := by
  have shorter (k : Nat) : before ++ (d :: ds).take (k + 1) = before ++ [d] ++ ds.take k := by simp
  have greatest (n : Nat) :
      Nat.findGreatest (fun k => digitsValue (before ++ (d :: ds).take k) < 2 ^ 64) (n + 1) =
        if digitsValue (before ++ [d]) < 2 ^ 64 then
          Nat.findGreatest (fun k => digitsValue (before ++ [d] ++ ds.take k) < 2 ^ 64) n + 1
        else 0 := by
    induction n with
    | zero => simp [Nat.findGreatest_succ]
    | succ n ih =>
      have first := digitsValue_le_append (before ++ [d]) (ds.take (n + 1))
      rw [Nat.findGreatest_succ, ih, Nat.findGreatest_succ, shorter]
      split
      next fits => rw [if_pos (Nat.lt_of_le_of_lt first fits)]
      next => rfl
  rw [kept, List.length_cons, greatest]
  split
  · rw [List.take_succ_cons, kept]
  · rfl

namespace Reader

/-- Gathering ends in the digits that are not kept. -/
theorem gather_digits (before : List Char) (count : Nat) (digits : ∀ d ∈ ds, d.isDigit = true)
    (ends : NoDigit s) :
    gather (digitsValue before) count (ds ++ s) =
      (digitsValue (before ++ kept before ds), count + (kept before ds).length,
        ds.drop (kept before ds).length ++ s) := by
  induction ds generalizing before count with
  | nil =>
    cases s with
    | nil => simp [gather, kept]
    | cons c s =>
      have other := ends c rfl
      simp [gather, kept, other]
  | cons d ds ih =>
    obtain ⟨digit, later⟩ := List.forall_mem_cons.mp digits
    have limit : largest = 2 ^ 64 - 1 := rfl
    rw [List.cons_append, gather, if_pos digit, kept_cons, ← digitsValue_concat]
    by_cases fits : digitsValue (before ++ [d]) < 2 ^ 64
    · rw [if_pos fits]
      simp only
      rw [if_pos (by omega), ih _ _ later, List.length_cons, List.drop_succ_cons, Nat.add_assoc,
        Nat.add_comm 1, List.append_assoc, List.singleton_append]
    · rw [if_neg fits]
      simp only
      rw [if_neg (by omega)]
      simp

/-! ## Answers -/

/-- The reader takes the text before `r` for the value, or refuses it as too large. -/
def Answers {α : Type} (value : Option α) (x : Except Fault (α × List Char)) (r : List Char) : Prop :=
  match value with
  | some a => x = .ok (a, r)
  | none => ∃ f, x = .error f ∧ f.cause = .numberTooLarge

/-- Whatever comes after the number, the reader takes it for the value, or refuses it as too large. -/
def Reads {α : Type} (value : Option α) (x : List Char → Except Fault (α × List Char)) : Prop :=
  ∀ r, NoNumber r → Answers value (x r) r

theorem reads_ok {α : Type} (a : α) : Reads (some a) fun r => .ok (a, r) := fun _ _ => rfl

theorem Reads.congr {α : Type} {value : Option α} {x y : List Char → Except Fault (α × List Char)}
    (reads : Reads value x) (same : ∀ r, NoNumber r → y r = x r) : Reads value y := by
  intro r ends
  rw [same r ends]
  exact reads r ends

/-- After one reader another one goes on. -/
theorem Reads.bind {α β : Type} {value : Option α} {x : List Char → Except Fault (α × List Char)}
    {value' : α → Option β} {next : α → List Char → Except Fault (β × List Char)}
    (first : Reads value x) (rest : ∀ a, Reads (value' a) (next a)) :
    Reads (value.bind value') fun r => x r >>= fun t => next t.1 t.2 := by
  intro r ends
  have answers := first r ends
  cases value with
  | none =>
    obtain ⟨f, refused, cause⟩ := answers
    exact ⟨f, by simp only [refused]; rfl, cause⟩
  | some a =>
    have read : x r = .ok (a, r) := answers
    simp only [read]
    exact rest a r ends

theorem Reads.map {α β : Type} {value : Option α} {x : List Char → Except Fault (α × List Char)}
    (reads : Reads value x) (f : α → β) :
    Reads (value.map f) fun r => x r >>= fun t => .ok (f t.1, t.2) := by
  rw [Option.map_eq_bind]
  exact reads.bind fun a => reads_ok (f a)

/-! ## Scaling -/

theorem zero_div (x : Double) : Double.zero.div x = .zero := by
  have nothing : Double.zero.toRatio.1 = 0 := rfl
  simp [Double.div, nothing, Double.ofRatio]

theorem zero_mul (x : Double) : Double.zero.mul x = .zero := by
  have nothing : Double.zero.toRatio.1 = 0 := rfl
  simp [Double.mul, nothing, Double.ofRatio]

theorem quotient_zero (e : Nat) : quotient .zero e = .zero := by
  unfold quotient
  generalize tens 308 = x
  rw [Function.iterate_fixed (f := (Double.div · x)) (zero_div x), zero_div]

theorem power_eq (e : Nat) : power e = tens e := rfl

/-- The loop divides as often as there is more to divide by, and stops at zero. -/
theorem scaleDown_eq (x : Double) {e : Nat} (positive : 0 < e) : scaleDown x e = quotient x e := by
  induction e using Nat.strongRecOn generalizing x with
  | ind e ih =>
    rw [scaleDown, power_eq, power_eq]
    by_cases small : e ≤ 308
    · have single : (e - 1) / 308 = 0 := Nat.div_eq_of_lt (by omega)
      rw [if_pos small, quotient, single]
      rfl
    · have more : (e - 1) / 308 = (e - 308 - 1) / 308 + 1 := by omega
      have rest : e - 308 * ((e - 308 - 1) / 308 + 1) = e - 308 - 308 * ((e - 308 - 1) / 308) := by
        omega
      have step : quotient x e = quotient (x.div (tens 308)) (e - 308) := by
        rw [quotient, quotient, more, rest, Function.iterate_succ_apply]
      rw [if_neg small]
      split
      next zero => rw [zero, quotient_zero]
      next => rw [step, ih (e - 308) (by omega) _ (by omega)]

theorem product_reads (x : Double) :
    Reads (if x.isInfinite = false then some x else none)
      fun r => if x.isInfinite then fail .numberTooLarge r else .ok (x, r) := by
  cases infinite : x.isInfinite with
  | true => exact fun r _ => ⟨_, rfl, rfl⟩
  | false => exact reads_ok x

theorem scale_reads (n : Nat) (e : Int) : Reads (scaled? n e) (scale n e) := by
  have nothing : Double.ofNat 0 = .zero := rfl
  unfold scale scaled?
  simp only [power_eq]
  by_cases zero : n = 0
  · subst zero
    refine (reads_ok Double.zero).congr fun r _ => ?_
    simp only [nothing, zero_mul]
    by_cases negative : e < 0
    · rw [if_neg (by omega), scaleDown_eq _ (by omega), quotient_zero]
    · rw [if_pos (by omega)]
      split
      · rfl
      · rfl
  · rw [if_neg zero]
    by_cases negative : e < 0
    · rw [if_pos negative]
      refine (reads_ok _).congr fun r _ => ?_
      rw [if_neg (by omega), scaleDown_eq _ (by omega)]
    · rw [if_neg negative]
      simp only [show e ≥ 0 by omega, if_true, zero, if_false]
      by_cases small : e ≤ 308
      · simp only [small, if_true, true_and]
        exact product_reads _
      · simp only [small, if_false, false_and]
        exact fun r _ => ⟨_, rfl, rfl⟩

/-! ## Exponents -/

/-- What the digits of an exponent come to, of which some have been read. -/
theorem exponentDigits_reads (isZero positive : Bool) (before : List Char)
    (small : digitsValue before < 2 ^ 31) (digits : ∀ d ∈ ds, d.isDigit = true) :
    Reads
      (if digitsValue (before ++ ds) < 2 ^ 31 then some (some (digitsValue (before ++ ds)))
        else if !isZero && positive then none else some none)
      fun r => exponentDigits isZero positive (digitsValue before) (ds ++ r) := by
  induction ds generalizing before with
  | nil =>
    rw [List.append_nil, if_pos small]
    refine (reads_ok _).congr fun r ends => ?_
    cases r with
    | nil => rfl
    | cons c r =>
      have other := ends.noDigit c rfl
      change exponentDigits isZero positive _ (c :: r) = _
      rw [exponentDigits, other]
      rfl
  | cons d ds ih =>
    obtain ⟨digit, later⟩ := List.forall_mem_cons.mp digits
    have shape : before ++ d :: ds = before ++ [d] ++ ds := by simp
    simp only [List.cons_append, exponentDigits, digit, if_true, ← digitsValue_concat, shape]
    by_cases fits : digitsValue (before ++ [d]) < 2 ^ 31
    · simp only [show digitsValue (before ++ [d]) < Nat.pow 2 31 from fits, if_true]
      exact ih (before ++ [d]) fits later
    · have large : ¬ digitsValue (before ++ [d] ++ ds) < 2 ^ 31 :=
        fun less => fits (Nat.lt_of_le_of_lt (digitsValue_le_append _ ds) less)
      simp only [show ¬ digitsValue (before ++ [d]) < Nat.pow 2 31 from fits, large, if_false]
      cases !isZero && positive with
      | true => exact fun r _ => ⟨_, rfl, rfl⟩
      | false =>
        refine (reads_ok none).congr fun r ends => ?_
        simp only [Bool.false_eq_true, if_false, (dropWhile_digits later ends.noDigit).2]

/-- The sign of an exponent tells which way the number is scaled. -/
theorem shifted?_signed (n : Nat) (shift : Int) (positive : Bool) (v : Nat) :
    shifted? n shift (some (if positive then v else -v)) =
      (if v < 2 ^ 31 then some (some v) else if !(n == 0) && positive then none else some none).bind
        fun p : Option Nat => match p with
          | none => some .zero
          | some p => scaled? n (if positive then shift + p else shift - p) := by
  have size : (if positive then (v : Int) else -v).natAbs = v := by
    cases positive <;> simp
  unfold shifted?
  simp only [size]
  by_cases small : v < 2 ^ 31
  · rw [if_pos small, if_pos small]
    cases positive <;> rfl
  · rw [if_neg small, if_neg small]
    cases positive with
    | false =>
      rw [if_neg fun large => absurd large.1 (by simp)]
      simp
    | true =>
      have large : v ≠ 0 := by omega
      by_cases zero : n = 0 <;> simp [zero, large, Nat.pos_iff_ne_zero]

/-- A number is scaled by its exponent, or it is decided by an exponent of too many digits. -/
theorem exponent_reads (n : Nat) (shift : Int) (sign : List Char) (positive : Bool)
    (digits : Digits ds)
    (signed : ∀ r, exponentSign (sign ++ (ds ++ r)) = (positive, ds ++ r)) :
    Reads (shifted? n shift (some (if positive then digitsValue ds else -digitsValue ds)))
      fun r => exponent n shift (sign ++ (ds ++ r)) := by
  obtain @⟨d, ds, digit, digits⟩ := digits
  have first : digitsValue [d] = d.toNat - 48 := by simp [digitsValue]
  have single : digitsValue [d] < 2 ^ 31 := by
    have range := digit
    simp only [Char.isDigit, Bool.and_eq_true, decide_eq_true_eq] at range
    have : d.toNat ≤ 57 := range.2
    omega
  have all := exponentDigits_reads (n == 0) positive [d] single digits
  rw [List.singleton_append] at all
  have scaled (p : Option Nat) : Reads
      (match p with
        | none => some .zero
        | some p => scaled? n (if positive then shift + p else shift - p))
      fun r =>
        match p with
        | none => .ok (Double.zero, r)
        | some p => scale n (if positive then shift + p else shift - p) r := by
    cases p with
    | none => exact reads_ok Double.zero
    | some p => exact scale_reads n _
  rw [shifted?_signed]
  refine (all.bind scaled).congr fun r _ => ?_
  rw [exponent, signed r]
  simp only [List.cons_append, digit, if_true, ← first]
  rfl

theorem ending_mark {mark : Char} (letter : mark = 'e' ∨ mark = 'E') (n : Nat) (shift : Int)
    (s : List Char) : ending n shift (mark :: s) = exponent n shift s := by
  rcases letter with rfl | rfl <;> rfl

/-- A digit is no sign. -/
theorem exponentSign_digit (digits : Digits ds) (r : List Char) :
    exponentSign (ds ++ r) = (true, ds ++ r) := by
  obtain ⟨digit, -⟩ := digits
  rw [List.cons_append]
  unfold exponentSign
  split
  next first => rw [(List.cons.inj first).1] at digit; cases digit
  next first => rw [(List.cons.inj first).1] at digit; cases digit
  · rfl

/-- The end of a number is read to the end of its exponent. -/
theorem ending_reads (n : Nat) (shift : Int) {e : Option Int} {x : List Char}
    (written : ExponentText e x) :
    Reads (shifted? n shift e) fun r => ending n shift (x ++ r) := by
  cases written with
  | none =>
    refine (scale_reads n shift).congr fun r ends => ?_
    change ending n shift r = _
    unfold ending
    split
    · exact absurd rfl (ends 'e' rfl).2.2.1
    · exact absurd rfl (ends 'E' rfl).2.2.2
    · rfl
  | @positive mark sign ds letter plus digits =>
    have signed (r : List Char) : exponentSign (sign ++ (ds ++ r)) = (true, ds ++ r) := by
      rcases plus with rfl | rfl
      · exact exponentSign_digit digits r
      · rfl
    refine (exponent_reads n shift sign true digits signed).congr fun r _ => ?_
    rw [List.cons_append, List.append_assoc, ending_mark letter]
  | negative letter digits =>
    refine (exponent_reads n shift ['-'] false digits fun r => rfl).congr fun r _ => ?_
    rw [List.cons_append, ending_mark letter]
    rfl

/-! ## Digits before and after the point -/

/-- What stands after the point is read on top of the digits before it. -/
theorem fraction_reads (before : List Char) (shift : Int) {e : Option Int} {x : List Char}
    (digits : Digits ds) (written : ExponentText e x) :
    Reads (shifted? (digitsValue (before ++ kept before ds)) (shift - (kept before ds).length) e)
      fun r => fraction (digitsValue before) shift (ds ++ (x ++ r)) := by
  refine (ending_reads _ _ written).congr fun r ends => ?_
  have behind := noDigit_of_exponent written ends
  have gathered := gather_digits before 0 digits.all behind
  have left : ∀ d ∈ ds.drop (kept before ds).length, d.isDigit = true :=
    fun d inside => digits.all d (List.mem_of_mem_drop inside)
  obtain ⟨digit, -⟩ := digits
  rw [List.cons_append] at gathered ⊢
  rw [fraction]
  simp only [digit, if_true, gathered, (dropWhile_digits left behind).2, Nat.zero_add]

/-- The rest of a number after the digits before its point. -/
theorem afterWhole_reads (before : List Char) (skipped : Nat) {f x : List Char} {e : Option Int}
    (fraction : FractionText ds f) (exponent : ExponentText e x) :
    Reads
      (if ds = [] ∧ e = none ∧ skipped = 0 then some none
        else (shifted? (digitsValue (before ++ kept before ds)) (skipped - (kept before ds).length)
          e).map some)
      fun r => afterWhole (digitsValue before) skipped (f ++ (x ++ r)) := by
  cases fraction with
  | digits digits =>
    have more : ds ≠ [] := by
      obtain ⟨-, -⟩ := digits
      exact List.cons_ne_nil _ _
    rw [if_neg fun nothing => more nothing.1]
    exact (fraction_reads before skipped digits exponent).map some
  | none =>
    have nothing : kept before [] = [] := rfl
    simp only [nothing, List.append_nil, List.length_nil, true_and]
    have ended := (ending_reads (digitsValue before) skipped exponent).map some
    cases exponent with
    | positive letter | negative letter =>
      rw [if_neg (by simp)]
      refine ended.congr fun r _ => ?_
      rcases letter with rfl | rfl <;> rfl
    | none =>
      have start (r : List Char) (ends : NoNumber r) : afterWhole (digitsValue before) skipped r =
          if skipped = 0 then .ok (none, r)
          else scale (digitsValue before) skipped r >>= fun t => .ok (some t.1, t.2) := by
        unfold afterWhole
        split
        · exact absurd rfl (ends '.' rfl).2.1
        · exact absurd rfl (ends 'e' rfl).2.2.1
        · exact absurd rfl (ends 'E' rfl).2.2.2
        · rfl
      by_cases all : skipped = 0
      · rw [if_pos ⟨rfl, all⟩]
        exact (reads_ok none).congr fun r ends => (start r ends).trans (if_pos all)
      · rw [if_neg fun both => all both.2]
        exact ((scale_reads (digitsValue before) skipped).map some).congr
          fun r ends => (start r ends).trans (if_neg all)

/-! ## Whole numbers -/

/-- The digits before the point are read as digits, not as a zero that more digits follow. -/
theorem number_whole (negative : Bool) {w : List Char} (whole : WholeText w) (ends : NoDigit s) :
    number negative (w ++ s) =
      afterWhole (digitsValue (kept [] w)) (w.length - (kept [] w).length) s >>= fun t =>
        match t.1 with
        | none => .ok (signed negative (digitsValue (kept [] w)), t.2)
        | some x => .ok (.real (if negative then x.neg else x), t.2) := by
  have digits := whole.isDigits
  have gathered := gather_digits [] 0 digits.all ends
  have left : ∀ d ∈ w.drop (kept [] w).length, d.isDigit = true :=
    fun d inside => digits.all d (List.mem_of_mem_drop inside)
  obtain ⟨skipped, rest⟩ := dropWhile_digits left ends
  obtain @⟨d, ds, digit, -⟩ := digits
  have single : ¬ (d = '0' ∧ (ds ++ s).head?.any Char.isDigit = true) := by
    rintro ⟨rfl, more⟩
    cases whole with
    | zero =>
      obtain ⟨c, first, isDigit⟩ := (Option.any_eq_true _ _).mp more
      rw [ends c first] at isDigit
      cases isDigit
    | digits _ other => exact other rfl
  rw [List.cons_append, digitsValue_nil, List.nil_append] at gathered
  rw [List.cons_append, number]
  simp only [digit, single, gathered, skipped, rest, if_true, if_false, List.length_drop]
  refine congrArg (afterWhole _ _ s >>= ·) (funext fun t => ?_)
  cases t.1 <;> rfl

/-- However a whole number is held, it is accepted as the number itself. -/
theorem valueOf?_signed (negative : Bool) (n : Nat) :
    Config.valueOf? (signed negative n) =
      some (.number (if negative then (Double.ofNat n).neg else .ofNat n)) := by
  unfold signed
  cases negative with
  | false => simp [Config.valueOf?]
  | true =>
    simp only [Bool.not_true, Bool.false_eq_true, if_false, if_true]
    split
    · rfl
    next range =>
      have negative : -(n : Int) < 0 := by omega
      rw [Config.valueOf?, if_pos negative, Int.natAbs_neg, Int.natAbs_natCast]

/-- The reader takes the text before `r` for an item that is accepted with the value, or refuses it as
too large. -/
def Accepts (value : Option Double) (x : Except Fault (Item × List Char)) (r : List Char) : Prop :=
  match value with
  | some d => ∃ i, x = .ok (i, r) ∧ Config.valueOf? i = some (.number d)
  | none => ∃ f, x = .error f ∧ f.cause = .numberTooLarge

/-- A number is read to its end, and the item that it is read as is accepted with what the number
stands for; or it stands for nothing, and is refused as too large. -/
theorem number_spelled {value : Option Double} {text : List Char} (written : NumberText value text)
    (negative : Bool) (ends : NoNumber r) :
    Accepts (value.map fun x => if negative then x.neg else x) (number negative (text ++ r)) r := by
  obtain @⟨w, fs, f, x, e, whole, fraction, exponent⟩ := written
  have behind := noDigit_of_fraction fraction exponent ends
  have rest := afterWhole_reads (kept [] w) (w.length - (kept [] w).length) fraction exponent r ends
  have shape : w ++ (f ++ x) ++ r = w ++ (f ++ (x ++ r)) := by simp
  have all : w.length - (kept [] w).length = 0 ↔ kept [] w = w :=
    length_sub_kept [] w
  rw [shape, number_whole negative whole behind]
  simp only [all] at rest
  unfold numberValue?
  by_cases isWhole : fs = [] ∧ e = none ∧ kept [] w = w
  · rw [if_pos isWhole] at rest ⊢
    have read : afterWhole _ _ _ = .ok (none, r) := rest
    refine ⟨signed negative (digitsValue (kept [] w)), by rw [read]; rfl, ?_⟩
    rw [valueOf?_signed, isWhole.2.2]
  · rw [if_neg isWhole] at rest ⊢
    generalize shifted? _ _ e = value at rest ⊢
    cases value with
    | none =>
      obtain ⟨fault, refused, cause⟩ := rest
      exact ⟨fault, by rw [refused]; rfl, cause⟩
    | some x =>
      have read : afterWhole _ _ _ = .ok (some x, r) := rest
      exact ⟨_, by rw [read]; rfl, rfl⟩

end Reader

end Json

end Splice
