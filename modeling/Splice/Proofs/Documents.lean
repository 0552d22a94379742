import Mathlib.Data.List.Induction
import Splice.Proofs.Overrides

/-!
# Configurations that are written and read again

What is written for a text is read as this text, so an object whose members are written one after
the other is read member by member. A configuration of booleans and texts is such an object, and
inserting its entries in their order builds it again.
-/
namespace Splice

namespace Json

/-! ## Texts -/

theorem hexValue?_hexDigit {n : Nat} (small : n < 16) : hexValue? (hexDigit n) = some n := by
  have all : ∀ n < 16, hexValue? (hexDigit n) = some n := by decide
  exact all n small

/-- The number of a control character is read from its two digits. -/
theorem hexNumber?_hexDigit {n : Nat} (small : n < 256) :
    hexNumber? ['0', '0', hexDigit (n / 16), hexDigit (n % 16)] = some n := by
  have zero : hexValue? '0' = some 0 := rfl
  have high : hexValue? (hexDigit (n / 16)) = some (n / 16) := hexValue?_hexDigit (by omega)
  have low : hexValue? (hexDigit (n % 16)) = some (n % 16) := hexValue?_hexDigit (by omega)
  have sum : n / 16 * 16 + n % 16 = n := by omega
  simp [hexNumber?, zero, high, low, sum]

namespace Reader

/-- A character that is written as it is, is read as it is. -/
theorem characters_cons {c : Char} (quote : c ≠ '\x22') (backslash : c ≠ '\\')
    (control : ¬ c.toNat < 0x20) (fuel : Nat) (r : List Char) :
    characters (fuel + 1) (c :: r) = (characters fuel r).map fun t => (c :: t.1, t.2) := by
  rw [characters, if_neg quote, if_neg backslash, if_neg control]
  rfl

/-- An escape is read as the character it stands for. -/
theorem characters_escaped {s r : List Char} {c : Char} (read : escaped s = .ok (c, r))
    (fuel : Nat) : characters (fuel + 1) ('\\' :: s) =
      (characters fuel r).map fun t => (c :: t.1, t.2) := by
  rw [characters, if_neg (by decide), if_pos rfl, read]
  rfl

theorem escaped_control {n : Nat} (control : n < 0x20) (r : List Char) :
    escaped ('u' :: '0' :: '0' :: hexDigit (n / 16) :: hexDigit (n % 16) :: r) =
      .ok (Char.ofNat n, r) := by
  have number := hexNumber?_hexDigit (n := n) (by omega)
  change numbered _ = _
  simp only [numbered, hex4, number, bind, Except.bind]
  rw [if_neg (by omega), if_neg (by omega)]
  rfl

/-- A character is written as it is, or as an escape that stands for it. -/
theorem escape_cases (c : Char) :
    (escape c = [c] ∧ c ≠ '\x22' ∧ c ≠ '\\' ∧ ¬ c.toNat < 0x20) ∨
      ∃ s, escape c = '\\' :: s ∧ ∀ r, escaped (s ++ r) = .ok (c, r) := by
  have known : ∀ {n : Nat}, c.toNat = n → c = Char.ofNat n := by
    rintro n rfl
    exact (Char.ofNat_toNat c).symm
  have short : ∀ {n : Nat} {s : List Char}, c.toNat = n →
      (∀ r, escaped (s ++ r) = .ok (Char.ofNat n, r)) →
      ∃ t, '\\' :: s = '\\' :: t ∧ ∀ r, escaped (t ++ r) = .ok (c, r) := by
    intro n s code read
    exact ⟨s, rfl, fun r => known code ▸ read r⟩
  unfold escape
  split
  next code => exact Or.inr (short code fun r => rfl)
  next code => exact Or.inr (short code fun r => rfl)
  next code => exact Or.inr (short code fun r => rfl)
  next code => exact Or.inr (short code fun r => rfl)
  next code => exact Or.inr (short code fun r => rfl)
  next code => exact Or.inr (short code fun r => rfl)
  next code => exact Or.inr (short code fun r => rfl)
  next quote backslash _ _ _ _ _ =>
    split
    next control => exact Or.inr (short rfl fun r => escaped_control control r)
    next control =>
      refine Or.inl ⟨rfl, ?_, ?_, control⟩
      · rintro rfl
        exact quote rfl
      · rintro rfl
        exact backslash rfl

/-- What is written for a character is read as this character. -/
theorem characters_escape (fuel : Nat) (c : Char) (r : List Char) :
    characters (fuel + 1) (escape c ++ r) = (characters fuel r).map fun t => (c :: t.1, t.2) := by
  rcases escape_cases c with ⟨same, quote, backslash, control⟩ | ⟨s, escape, read⟩
  · rw [same]
    exact characters_cons quote backslash control fuel r
  · rw [escape]
    exact characters_escaped (read r) fuel

theorem characters_written (s r : List Char) {fuel : Nat} (enough : s.length < fuel) :
    characters fuel (s.flatMap escape ++ '\x22' :: r) = .ok (s, r) := by
  induction s generalizing fuel with
  | nil =>
    obtain ⟨fuel, rfl⟩ := Nat.exists_eq_add_of_lt enough
    simp [characters]
  | cons c s ih =>
    obtain ⟨fuel, rfl⟩ : ∃ n, fuel = n + 1 := ⟨fuel - 1, by simp at enough; omega⟩
    rw [List.flatMap_cons, List.append_assoc, characters_escape,
      ih (Nat.lt_of_succ_lt_succ enough)]
    rfl

theorem length_le_escape (c : Char) : 1 ≤ (escape c).length := by
  rcases escape_cases c with ⟨same, -⟩ | ⟨s, escape, -⟩
  · simp [same]
  · simp [escape]

theorem length_le_flatMap_escape (s : List Char) : s.length ≤ (s.flatMap escape).length := by
  induction s with
  | nil => simp
  | cons c s ih =>
    have first := length_le_escape c
    simp only [List.flatMap_cons, List.length_append, List.length_cons]
    omega

/-- A written text is read as it was, up to its closing quote. -/
theorem text_written (s r : List Char) :
    text (s.flatMap escape ++ '\x22' :: r) = .ok (String.ofList s, r) := by
  have enough := length_le_flatMap_escape s
  rw [text, characters_written s r (by rw [List.length_append]; omega)]
  rfl

end Reader

/-! ## Objects -/

/-- A member as it is written. -/
def memberText (m : String × Json) : List Char := writeText m.1.toList ++ ':' :: m.2.compact

theorem compactMembers_cons (m : String × Json) (ms : List (String × Json)) :
    compactMembers (m :: ms) = memberText m ++ ms.flatMap fun m => ',' :: memberText m := by
  induction ms generalizing m with
  | nil => simp [compactMembers, memberText]
  | cons n ms ih =>
    rw [compactMembers, ih n, List.flatMap_cons]
    simp [memberText]

namespace Reader

variable {σ : Type} {step : String → σ → Reader σ}

theorem text_memberText (m : String × Json) (r : List Char) :
    ∃ s, memberText m ++ r = '\x22' :: s ∧ text s = .ok (m.1, ':' :: m.2.compact ++ r) := by
  refine ⟨_, rfl, ?_⟩
  have read := text_written m.1.toList (':' :: m.2.compact ++ r)
  rw [String.ofList_toList] at read
  simpa using read

/-- A written member is read by its key and by what the step reads after it. -/
theorem members_first (m : String × Json) (fuel : Nat) (acc : σ) (r : List Char) :
    members step (fuel + 1) true acc (memberText m ++ r) =
      (step m.1 acc (':' :: m.2.compact ++ r)).bind fun t => members step fuel false t.1 t.2 := by
  obtain ⟨s, starts, read⟩ := text_memberText m r
  have first : members step (fuel + 1) true acc ('\x22' :: s) =
      (text s).bind fun t => (step t.1 acc t.2).bind fun t => members step fuel false t.1 t.2 := rfl
  rw [starts, first, read]
  rfl

theorem members_later (m : String × Json) (fuel : Nat) (acc : σ) (r : List Char) :
    members step (fuel + 1) false acc (',' :: memberText m ++ r) =
      (step m.1 acc (':' :: m.2.compact ++ r)).bind fun t => members step fuel false t.1 t.2 := by
  obtain ⟨s, starts, read⟩ := text_memberText m r
  have later : members step (fuel + 1) false acc (',' :: '\x22' :: s) =
      (text s).bind fun t => (step t.1 acc t.2).bind fun t => members step fuel false t.1 t.2 := rfl
  rw [List.cons_append, starts, later, read]
  rfl

variable {α : Type} {member : α → String × Json} {next : α → σ → σ}

/-- The step reads what is written for each of the things, whatever follows it. -/
def ReadsEach (step : String → σ → Reader σ) (member : α → String × Json) (next : α → σ → σ)
    (xs : List α) : Prop :=
  ∀ x ∈ xs, ∀ acc r,
    step (member x).1 acc (':' :: (member x).2.compact ++ r) = .ok (next x acc, r)

theorem members_rest {xs : List α} (reads : ReadsEach step member next xs) {fuel : Nat}
    (enough : xs.length < fuel) (acc : σ) (r : List Char) :
    members step fuel false acc
        (((xs.map member).flatMap fun m => ',' :: memberText m) ++ '\x7d' :: r) =
      .ok (xs.foldl (fun acc x => next x acc) acc, r) := by
  induction xs generalizing fuel acc with
  | nil =>
    obtain ⟨fuel, rfl⟩ := Nat.exists_eq_add_of_lt enough
    rfl
  | cons x xs ih =>
    obtain ⟨fuel, rfl⟩ : ∃ n, fuel = n + 1 := ⟨fuel - 1, by simp at enough; omega⟩
    rw [List.map_cons, List.flatMap_cons, List.append_assoc, members_later,
      reads x List.mem_cons_self]
    exact ih (fun y inside => reads y (List.mem_cons_of_mem x inside))
      (Nat.lt_of_succ_lt_succ enough) (next x acc)

theorem length_le_compactMembers (ms : List (String × Json)) :
    ms.length ≤ (compactMembers ms).length := by
  have later : ∀ ms : List (String × Json),
      ms.length ≤ (ms.flatMap fun m => ',' :: memberText m).length := by
    intro ms
    induction ms with
    | nil => simp
    | cons m ms ih =>
      rw [List.flatMap_cons, List.length_append, List.length_cons, List.length_cons]
      omega
  cases ms with
  | nil => simp
  | cons m ms =>
    have rest := later ms
    have first : 1 ≤ (memberText m).length := by simp [memberText, writeText]
    rw [compactMembers_cons, List.length_append, List.length_cons]
    omega

/-- The members of a written object are read one after the other. -/
theorem objectOf_written {xs : List α} (reads : ReadsEach step member next xs) (acc : σ)
    (r : List Char) : objectOf step acc (compactMembers (xs.map member) ++ '\x7d' :: r) =
      .ok (xs.foldl (fun acc x => next x acc) acc, r) := by
  have enough := length_le_compactMembers (xs.map member)
  rw [objectOf]
  generalize fuel : (compactMembers (xs.map member) ++ '\x7d' :: r).length = n
  rw [List.length_append, List.length_cons] at fuel
  cases xs with
  | nil => rfl
  | cons x xs =>
    rw [List.map_cons, compactMembers_cons, List.append_assoc, members_first,
      reads x List.mem_cons_self]
    refine members_rest (fun y inside => reads y (List.mem_cons_of_mem x inside)) ?_ (next x acc) r
    rw [List.length_map, List.length_cons] at enough
    omega

end Reader

end Json

/-! ## Entries in order -/

namespace Entries

/-- A key after all others is put at the end. -/
theorem insertInto_last {key : String} {es : List (String × Value)} (v : Value)
    (after : ∀ e ∈ es, e.1 < key) : insertInto key v es = es ++ [(key, v)] := by
  induction es with
  | nil => rfl
  | cons e es ih =>
    have less : e.1 < key := after e List.mem_cons_self
    have rest := ih fun d inside => after d (List.mem_cons_of_mem e inside)
    rw [insertInto, if_neg (ne_of_gt less), if_neg (not_lt_of_gt less), rest]
    rfl

/-- Entries that are inserted in their order come out as they were. -/
theorem toList_foldl_insert {es : List (String × Value)} (order : es.Pairwise fun a b => a.1 < b.1) :
    (es.foldl (fun acc e => acc.insert e.1 e.2) ({} : Entries)).toList = es := by
  induction es using List.reverseRecOn with
  | nil => rfl
  | append_singleton es e ih =>
    obtain ⟨before, -, last⟩ := List.pairwise_append.mp order
    rw [List.foldl_concat, toList_insert, ih before]
    exact insertInto_last e.2 fun d inside => last d inside e List.mem_cons_self

theorem foldl_insert (es : Entries) : es.toList.foldl (fun acc e => acc.insert e.1 e.2) {} = es :=
  Entries.ext (toList_foldl_insert es.inOrder)

end Entries

/-! ## Configurations -/

/-- Numbers are not always read as they were written. -/
def Value.isNumber : Value → Bool
  | number _ => true
  | _ => false

namespace Config

open Json (Reader)
open Json.Reader

/-- A written boolean or text is read as an item that stands for it. -/
theorem item_written {v : Value} (plain : v.isNumber = false) (depth : Nat) (r : List Char) :
    ∃ i, Reader.item (depth + 1) (v.toJson.compact ++ r) = .ok (i, r) ∧ valueOf? i = some v := by
  cases v with
  | bool b => cases b <;> exact ⟨_, rfl, rfl⟩
  | number d => cases plain
  | text s =>
    have read := text_written s.toList r
    rw [String.ofList_toList] at read
    have start : Reader.item (depth + 1) ((Value.text s).toJson.compact ++ r) =
        (Reader.text (s.toList.flatMap Json.escape ++ ['\x22'] ++ r)).bind fun t =>
          .ok (.text t.1, t.2) := rfl
    refine ⟨.text s, ?_, rfl⟩
    rw [start, List.append_assoc, List.singleton_append, read]
    rfl

theorem entry_written {v : Value} (plain : v.isNumber = false) (depth : Nat) (key : String)
    (es : Entries) (r : List Char) :
    entry (depth + 1) key es (':' :: v.toJson.compact ++ r) = .ok (es.insert key v, r) := by
  obtain ⟨i, read, value⟩ := item_written plain depth r
  have colon : Reader.colon (':' :: v.toJson.compact ++ r) = .ok ((), v.toJson.compact ++ r) := rfl
  simp only [entry, colon, read, value, bind, Except.bind, pure, Except.pure]

/-- The object that a configuration's entries are written as. -/
def entriesJson (c : Config) : Json := .object (c.replace.toList.map fun e => (e.1, e.2.toJson))

theorem write_eq (c : Config) :
    c.write.toList = '\x7b' :: (Json.memberText ("replace", c.entriesJson) ++ ['\x7d']) := by
  rw [write, String.toList_ofList]
  rfl

theorem entries_written {c : Config} (plain : ∀ e ∈ c.replace.toList, e.2.isNumber = false)
    (depth : Nat) (r : List Char) :
    entries (depth + 1) (c.entriesJson.compact ++ r) = .ok (c.replace, r) := by
  have reads : ReadsEach (entry (depth + 1)) (fun e : String × Value => (e.1, e.2.toJson))
      (fun e es => es.insert e.1 e.2) c.replace.toList :=
    fun e inside es r => entry_written (plain e inside) depth e.1 es r
  have object := objectOf_written reads {} r
  rw [Entries.foldl_insert] at object
  have start : entries (depth + 1) (c.entriesJson.compact ++ r) =
      Reader.objectOf (entry (depth + 1)) {}
        (Json.compactMembers (c.replace.toList.map fun e => (e.1, e.2.toJson)) ++ ['\x7d'] ++ r) :=
    rfl
  rw [start, List.append_assoc]
  exact object

theorem document_written {c : Config} (plain : ∀ e ∈ c.replace.toList, e.2.isNumber = false) :
    document c.write.toList = .ok (c, []) := by
  have listed := entries_written plain (maxDepth - 3) ['\x7d']
  have named : field "replace" none (':' :: c.entriesJson.compact ++ ['\x7d']) =
      .ok (some c.replace, ['\x7d']) := by
    have start : field "replace" none (':' :: c.entriesJson.compact ++ ['\x7d']) =
        (entries (maxDepth - 3 + 1) (c.entriesJson.compact ++ ['\x7d'])).bind fun t =>
          .ok (some t.1, t.2) := rfl
    rw [start, listed]
    rfl
  have object : Reader.objectOf field none (Json.memberText ("replace", c.entriesJson) ++ ['\x7d']) =
      .ok (some c.replace, []) := by
    rw [Reader.objectOf, members_first, named]
    rfl
  have start : document ('\x7b' :: (Json.memberText ("replace", c.entriesJson) ++ ['\x7d'])) =
      (Reader.objectOf field none (Json.memberText ("replace", c.entriesJson) ++ ['\x7d'])).bind
        fun t => (Reader.finished t.2).bind fun ended => .ok (⟨t.1.getD {}⟩, ended.2) := rfl
  rw [write_eq, start, object]
  rfl

/-- A configuration of booleans and texts that is written and read again is the same as before. -/
theorem parse_write (c : Config) (plain : ∀ e ∈ c.replace.toList, e.2.isNumber = false) :
    parse c.write = .ok c := by
  rw [parse, document_written plain]

/-- Keys and texts with quotes, backslashes, control characters and characters beyond sixteen bits;
the text `true` stays a text beside the boolean. -/
theorem parse_write_escapes :
    let c : Config := ⟨{ toList := [("\x01\n\\", .text "\"\x1f/\x7f"), ("\"a\"", .bool true),
      ("b", .text "true"), ("𝒃", .text "\uffff😀")] }⟩
    (∀ e ∈ c.replace.toList, e.2.isNumber = false) ∧
      parse c.write = .ok c := by
  intro c
  have plain : ∀ e ∈ c.replace.toList, e.2.isNumber = false := by decide
  exact ⟨plain, parse_write c plain⟩

end Config

end Splice
