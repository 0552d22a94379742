import Mathlib
import Splice.Proofs.ReadBack

/-!
# What texts denote

A text denotes a sequence of UTF-16 code units. A string or a template that holds halves of
surrogate pairs stands for them by marks; read with the marks decoded, the node of a literal denotes
the units that the literal was decoded to. Classifying a text drops the flag that tells marks from
text, so what is built denotes what the text denotes exactly if no half stands alone in it.
-/
namespace Splice

/-! ## Code units -/

/-- The UTF-16 code units of a character or a half. -/
def TextUnit.codeUnits : TextUnit → List Nat
  | char c =>
    if c.toNat < 0x10000 then [c.toNat]
    else [0xd800 + (c.toNat - 0x10000) / 0x400, 0xdc00 + (c.toNat - 0x10000) % 0x400]
  | half n => [n]

/-- The unit that U+FFFD with four hexadecimal digits after it stands for. -/
def TextUnit.ofMark (a b d e : Char) : TextUnit :=
  match readFourHex [a, b, d, e] with
  | some (n, _) => if n = 0xfffd then char (Char.ofNat n) else half n
  | none => char (Char.ofNat 0xfffd)

/-- What a text stands for in which halves are marked. -/
def decodeUnits : List Char → List TextUnit
  | [] => []
  | c :: a :: b :: d :: e :: r =>
    if c.toNat = 0xfffd then .ofMark a b d e :: decodeUnits r
    else .char c :: decodeUnits (a :: b :: d :: e :: r)
  | c :: r => .char c :: decodeUnits r

/-- The code units that a text denotes, given whether it holds marks. -/
def codeUnits (text : String) (surrogates : Bool) : List Nat :=
  let units := if surrogates then decodeUnits text.toList else text.toList.map .char
  units.flatMap TextUnit.codeUnits

namespace Form

/-- The text that a literal holds. -/
def content? : Form → Option String
  | .string v _ => some v
  | .template [q] => q.cooked
  | _ => none

/-- The literal holds half of a surrogate pair without the other half. -/
def hasHalves : Form → Bool
  | .string _ surrogates => surrogates
  | .template [q] => q.surrogates
  | _ => false

/-- The code units that a literal denotes. -/
def codeUnits? (f : Form) : Option (List Nat) := f.content?.map (codeUnits · f.hasHalves)

end Form

/-! ## Marks -/

theorem decodeUnits_cons {c : Char} (plain : c.toNat ≠ 0xfffd) (r : List Char) :
    decodeUnits (c :: r) = .char c :: decodeUnits r := by
  match r with
  | a :: b :: d :: e :: r => rw [decodeUnits, if_neg plain]
  | [] | [a] | [a, b] | [a, b, d] => rfl

theorem decodeUnits_mark (a b d e : Char) (r : List Char) :
    decodeUnits (Char.ofNat 0xfffd :: a :: b :: d :: e :: r) =
      .ofMark a b d e :: decodeUnits r := by
  rw [decodeUnits, if_pos (by decide)]

theorem hexValue_digitChar : ∀ d < 16, hexValue (Nat.digitChar d) = some d := by
  decide

theorem readFourHex_fourHex {n : Nat} (small : n < 65536) :
    readFourHex (fourHex n) = some (n, []) := by
  have digit (m : Nat) : hexValue (Nat.digitChar (m % 16)) = some (m % 16) :=
    hexValue_digitChar _ (Nat.mod_lt m (by decide))
  simp only [fourHex, List.map_cons, List.map_nil, readFourHex, digit, Option.some.injEq,
    Prod.mk.injEq, and_true]
  omega

/-- A mark stands for the half it was written for. -/
theorem decodeUnits_half {n : Nat} (sound : (TextUnit.half n).IsSound) (r : List Char) :
    decodeUnits (Char.ofNat 0xfffd :: fourHex n ++ r) = .half n :: decodeUnits r := by
  have range : 0xd800 ≤ n ∧ n ≤ 0xdfff := by
    simp only [TextUnit.IsSound, isHighHalf, isLowHalf, Bool.or_eq_true, Bool.and_eq_true,
      decide_eq_true_eq] at sound
    omega
  have mark := readFourHex_fourHex (n := n) (by omega)
  simp only [fourHex, List.map_cons, List.map_nil] at mark
  simp only [fourHex, List.map_cons, List.map_nil, List.cons_append, List.nil_append,
    decodeUnits_mark, TextUnit.ofMark, mark]
  rw [if_neg (by omega)]

/-- Decoding undoes marking. -/
theorem decodeUnits_marked (us : List TextUnit) (sound : AllSound us) :
    decodeUnits (us.flatMap TextUnit.marked) = us := by
  induction us with
  | nil => rfl
  | cons u us ih =>
    have rest := ih fun v inside => sound v (List.mem_cons_of_mem u inside)
    rw [List.flatMap_cons]
    cases u with
    | half n =>
      rw [TextUnit.marked, decodeUnits_half (sound _ List.mem_cons_self), rest]
    | char c =>
      rw [TextUnit.marked]
      split
      next replacement =>
        obtain rfl : c = Char.ofNat 0xfffd := Char.toNat_inj.mp replacement
        change decodeUnits (_ :: 'f' :: 'f' :: 'f' :: 'd' :: us.flatMap TextUnit.marked) = _
        rw [decodeUnits_mark, rest]
        rfl
      next plain =>
        rw [List.singleton_append, decodeUnits_cons plain, rest]

/-- Units without halves are their characters. -/
theorem map_char_plain {us : List TextUnit} (whole : us.any TextUnit.isHalf = false) :
    (us.flatMap TextUnit.plain).map TextUnit.char = us := by
  induction us with
  | nil => rfl
  | cons u us ih =>
    rw [List.any_cons, Bool.or_eq_false_iff] at whole
    cases u with
    | half n => cases whole.1
    | char c => rw [List.flatMap_cons, List.map_append, ih whole.2]; rfl

/-- An encoded text denotes the units it was encoded from. -/
theorem codeUnits_encodeUnits {us : List TextUnit} (sound : AllSound us) :
    codeUnits (encodeUnits us).1 (encodeUnits us).2 = us.flatMap TextUnit.codeUnits := by
  unfold encodeUnits codeUnits
  split
  next => simp only [if_true, String.toList_ofList, decodeUnits_marked us sound]
  next whole =>
    rw [Bool.not_eq_true] at whole
    simp only [Bool.false_eq_true, if_false, String.toList_ofList, map_char_plain whole]

/-! ## Marks taken for characters -/

theorem one_le_length_codeUnits (u : TextUnit) : 1 ≤ u.codeUnits.length := by
  unfold TextUnit.codeUnits
  split
  · split <;> simp
  · simp

/-- A mark has five characters and stands for a single code unit. -/
theorem length_marked (u : TextUnit) :
    u.codeUnits.length + (if u.isHalf then 1 else 0) ≤
      ((u.marked.map TextUnit.char).flatMap TextUnit.codeUnits).length := by
  cases u with
  | char c =>
    obtain ⟨more, marked⟩ : ∃ more, (TextUnit.char c).marked = c :: more := by
      rw [TextUnit.marked]
      split <;> exact ⟨_, rfl⟩
    simp [marked, TextUnit.isHalf]
  | half n =>
    have first := one_le_length_codeUnits (.char (Char.ofNat 0xfffd))
    have second := one_le_length_codeUnits (.char (Nat.digitChar (n % 16)))
    simp only [TextUnit.marked, fourHex, List.map_cons, List.map_nil, List.flatMap_cons,
      List.length_append, TextUnit.isHalf, if_true]
    change 1 + 1 ≤ _
    omega

/-- Taken for characters, the marks of a text denote more code units than what they stand for. -/
theorem length_codeUnits_marked (us : List TextUnit) :
    (us.flatMap TextUnit.codeUnits).length + us.countP TextUnit.isHalf ≤
      (codeUnits (String.ofList (us.flatMap TextUnit.marked)) false).length := by
  simp only [codeUnits, Bool.false_eq_true, if_false, String.toList_ofList]
  induction us with
  | nil => simp
  | cons u us ih =>
    have here := length_marked u
    simp only [List.flatMap_cons, List.map_append, List.flatMap_append, List.length_append,
      List.countP_cons] at ih ⊢
    omega

/-- Without its flag, an encoded text denotes its units exactly if no half is among them. -/
theorem codeUnits_unflagged_iff {us : List TextUnit} (sound : AllSound us) :
    codeUnits (encodeUnits us).1 false = codeUnits (encodeUnits us).1 (encodeUnits us).2 ↔
      (encodeUnits us).2 = false := by
  constructor
  · intro same
    rw [codeUnits_encodeUnits sound] at same
    unfold encodeUnits at same ⊢
    split
    next half =>
      rw [if_pos half] at same
      have longer := length_codeUnits_marked us
      have some : 0 < us.countP TextUnit.isHalf := List.countP_pos_iff.mpr (List.any_eq_true.mp half)
      rw [same] at longer
      omega
    next => rfl
  · intro whole
    rw [whole]

/-- What a literal holds, as a string of its own, denotes what the literal denotes exactly if no
half of a surrogate pair stands alone in the literal. -/
theorem Form.Decoded.codeUnits?_string {us : List TextUnit} {form : Form}
    (decoded : form.Decoded us) (sound : AllSound us) :
    ∃ v, form.content? = some v ∧
      ((Form.string v false).codeUnits? = form.codeUnits? ↔ form.hasHalves = false) := by
  refine ⟨(encodeUnits us).1, ?_, ?_⟩
  · cases decoded <;> rfl
  · have units : form.codeUnits? = some (codeUnits (encodeUnits us).1 (encodeUnits us).2) := by
      cases decoded <;> rfl
    have halves : form.hasHalves = (encodeUnits us).2 := by
      cases decoded <;> rfl
    rw [units, halves, ← codeUnits_unflagged_iff sound]
    exact Option.some_inj

/-! ## Classified literals -/

namespace Replacement

variable {text : String} {e : Node}

/-- A quoted literal is classified as what it holds. -/
theorem classify_of_content {v : String} (quoted : isQuoted text.toList = true)
    (read : parseExpression .plain text = some e) (content : e.form.content? = some v) :
    classify text = .string v := by
  rw [classify_of_quoted quoted, classifyQuoted, read]
  dsimp only
  split
  next w h form =>
    rw [form] at content
    cases content
    rfl
  next q form =>
    rw [form] at content
    change q.cooked = some v at content
    rw [content]
  next string template =>
    unfold Form.content? at content
    split at content
    next w h form => exact (string w h form).elim
    next q form => exact (template q form).elim
    next => cases content

/-- Words that are classified as truth values are read as them. -/
theorem build_of_not_quoted (quoted : isQuoted text.toList = false)
    (read : parseExpression .plain text = some e) (span : Span) :
    (classify text).build .plain span = some (e.respan span) := by
  unfold classify
  split
  next word =>
    subst word
    have known : parseExpression .plain "true" =
      some (.mk (.boolean true) .value ⟨⟨1, 5⟩, []⟩ []) := by rfl
    rw [known] at read
    cases read
    rfl
  next =>
    split
    next word =>
      subst word
      have known : parseExpression .plain "false" =
        some (.mk (.boolean false) .value ⟨⟨1, 6⟩, []⟩ []) := by rfl
      rw [known] at read
      cases read
      rfl
    next =>
      rw [if_neg (by simp [quoted]), build, read]
      rfl

/-- What is built for an accepted text denotes what the text denotes, up to halves of surrogate
pairs: a quoted literal becomes a string, which reads back as itself and denotes the code units of
the literal exactly if no half stands alone in it. Any other text becomes its own expression. -/
theorem classify_denotes (read : parseExpression .plain text = some e) (span : Span) :
    ∃ b, (classify text).build .plain span = some b ∧
      (isQuoted text.toList = true ∧ e.form.isText = true →
        ∃ v, e.form.content? = some v ∧ b = .mk (.string v false) .value span [] ∧
          (∃ r, parseExpression .plain b.render = some r ∧ r.form.codeUnits? = b.form.codeUnits?) ∧
          (b.form.codeUnits? = e.form.codeUnits? ↔ e.form.hasHalves = false)) ∧
      (¬ (isQuoted text.toList = true ∧ e.form.isText = true) → b = e.respan span) := by
  cases quoted : isQuoted text.toList with
  | false => exact ⟨e.respan span, build_of_not_quoted quoted read span, by simp, fun _ => rfl⟩
  | true =>
    cases isText : e.form.isText with
    | false =>
      refine ⟨e.respan span, ?_, by simp, fun _ => rfl⟩
      rw [classify_of_not_isText quoted read isText, build, read]
      rfl
    | true =>
      obtain ⟨p, parsed, sole, -⟩ := parseExpression_inv read
      rcases sole_cases quoted parsed sole with larger | ⟨form, here, rfl, literal⟩
      · rw [larger.isText] at isText
        cases isText
      · obtain ⟨us, sound, decoded⟩ := literal.decoded quoted
        obtain ⟨v, content, same⟩ := decoded.codeUnits?_string sound
        refine ⟨.mk (.string v false) .value span [], ?_, ?_, by simp⟩
        · rw [classify_of_content quoted read content]
          rfl
        · intro _
          refine ⟨v, content, rfl, ?_, same⟩
          obtain ⟨there, back⟩ := parseExpression_write v .plain
          rw [Node.render_string]
          exact ⟨_, back, rfl⟩

/-- Two halves that are escaped one after the other are a character. -/
theorem classify_denotes_pair :
    ∃ e b, parseExpression .plain "\"\\ud83d\\ude00\\x41\"" = some e ∧
      e.form.codeUnits? = some [0xd83d, 0xde00, 0x41] ∧
      (classify "\"\\ud83d\\ude00\\x41\"").build .plain ⟨4, 5⟩ = some b ∧
      b.form.codeUnits? = some [0xd83d, 0xde00, 0x41] := by
  have run : (parseExpression .plain "\"\\ud83d\\ude00\\x41\"").map (fun e =>
      (e.form.codeUnits?, e.form.isText, e.form.hasHalves)) =
    some (some [0xd83d, 0xde00, 0x41], true, false) := by decide +kernel
  obtain ⟨e, read, facts⟩ := Option.map_eq_some_iff.mp run
  simp only [Prod.mk.injEq] at facts
  obtain ⟨units, text, whole⟩ := facts
  obtain ⟨b, built, literal, -⟩ := classify_denotes read ⟨4, 5⟩
  obtain ⟨v, -, -, -, same⟩ := literal ⟨by decide, text⟩
  exact ⟨e, b, read, units, built, (same.mpr whole).trans units⟩

/-- A half that stands alone becomes five characters: the mark for it is taken for text. -/
theorem classify_loses_half :
    ∃ e b, parseExpression .plain "\"\\ud800\"" = some e ∧
      (classify "\"\\ud800\"").build .plain ⟨4, 5⟩ = some b ∧
      e.form.codeUnits? = some [0xd800] ∧
      b.form.codeUnits? = some [0xfffd, 0x64, 0x38, 0x30, 0x30] := by
  have before : (parseExpression .plain "\"\\ud800\"").map (fun e => e.form.codeUnits?) =
    some (some [0xd800]) := by decide +kernel
  have after : ((classify "\"\\ud800\"").build .plain ⟨4, 5⟩).map (fun e => e.form.codeUnits?) =
    some (some [0xfffd, 0x64, 0x38, 0x30, 0x30]) := by decide +kernel
  obtain ⟨e, read, units⟩ := Option.map_eq_some_iff.mp before
  obtain ⟨b, built, marks⟩ := Option.map_eq_some_iff.mp after
  exact ⟨e, b, read, built, units, marks⟩

end Replacement

end Splice
