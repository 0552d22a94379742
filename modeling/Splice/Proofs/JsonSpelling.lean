import Splice.Proofs.Documents
import Splice.Proofs.JsonNumbers

/-!
# How JSON values are spelled

A value can be written in many ways: with blanks around all marks and values, with characters of
texts escaped or not, with numbers in any form. An object is read member by member, whatever way it
is written in.
-/
namespace Splice

namespace Json

/-! ## Texts -/

/-- The characters that have escapes of their own, after the letters of these. -/
def shortEscapes : List (Char × Char) :=
  [('\x22', '\x22'), ('\\', '\\'), ('/', '/'), ('b', '\x08'), ('f', '\x0c'), ('n', '\n'),
    ('r', '\r'), ('t', '\t')]

/-- The ways to write a character in a text. Surrogates stand in pairs only. -/
inductive CharText : Char → List Char → Prop where
  | plain {c : Char} : c ≠ '\x22' → c ≠ '\\' → ¬ c.toNat < 0x20 → CharText c [c]
  | short {letter c : Char} : (letter, c) ∈ shortEscapes → CharText c ['\\', letter]
  | numbered {a b c d : Char} {n : Nat} : hexNumber? [a, b, c, d] = some n →
    n < 0xD800 ∨ 0xDFFF < n → CharText (Char.ofNat n) ['\\', 'u', a, b, c, d]
  | pair {a b c d e f g h : Char} {n m : Nat} : hexNumber? [a, b, c, d] = some n →
    0xD800 ≤ n ∧ n ≤ 0xDBFF → hexNumber? [e, f, g, h] = some m → 0xDC00 ≤ m ∧ m ≤ 0xDFFF →
    CharText (Char.ofNat ((n - 0xD800) * 0x400 + (m - 0xDC00) + 0x10000))
      ['\\', 'u', a, b, c, d, '\\', 'u', e, f, g, h]

/-- The ways to write what stands between the quotes of a text. -/
inductive TextBody : List Char → List Char → Prop where
  | nil : TextBody [] []
  | cons {c : Char} {s cs t : List Char} : CharText c cs → TextBody s t → TextBody (c :: s) (cs ++ t)

namespace Reader

theorem escaped_short {letter c : Char} (known : (letter, c) ∈ shortEscapes) (r : List Char) :
    escaped (letter :: r) = .ok (c, r) := by
  simp only [shortEscapes, List.mem_cons, Prod.mk.injEq, List.not_mem_nil, or_false] at known
  rcases known with ⟨rfl, rfl⟩ | ⟨rfl, rfl⟩ | ⟨rfl, rfl⟩ | ⟨rfl, rfl⟩ | ⟨rfl, rfl⟩ | ⟨rfl, rfl⟩ |
    ⟨rfl, rfl⟩ | ⟨rfl, rfl⟩ <;> rfl

theorem escaped_numbered {a b c d : Char} {n : Nat} (number : hexNumber? [a, b, c, d] = some n)
    (single : n < 0xD800 ∨ 0xDFFF < n) (r : List Char) :
    escaped ('u' :: a :: b :: c :: d :: r) = .ok (Char.ofNat n, r) := by
  change numbered _ = _
  simp only [numbered, hex4, number, bind, Except.bind]
  rw [if_neg (by omega), if_neg (by omega)]
  rfl

theorem escaped_pair {a b c d e f g h : Char} {n m : Nat} (high : hexNumber? [a, b, c, d] = some n)
    (isHigh : 0xD800 ≤ n ∧ n ≤ 0xDBFF) (low : hexNumber? [e, f, g, h] = some m)
    (isLow : 0xDC00 ≤ m ∧ m ≤ 0xDFFF) (r : List Char) :
    escaped ('u' :: a :: b :: c :: d :: '\\' :: 'u' :: e :: f :: g :: h :: r) =
      .ok (Char.ofNat ((n - 0xD800) * 0x400 + (m - 0xDC00) + 0x10000), r) := by
  change numbered _ = _
  simp only [numbered, hex4, high, low, follows, bind, Except.bind, if_true]
  rw [if_neg (by omega), if_pos isHigh, if_pos isLow]
  rfl

/-- However it is written, a character is read as this character. -/
theorem characters_spelled {c : Char} {cs : List Char} (written : CharText c cs) (fuel : Nat)
    (r : List Char) :
    characters (fuel + 1) (cs ++ r) = (characters fuel r).map fun t => (c :: t.1, t.2) := by
  cases written with
  | plain quote backslash control => exact characters_cons quote backslash control fuel r
  | short known => exact characters_escaped (escaped_short known r) fuel
  | numbered number single => exact characters_escaped (escaped_numbered number single r) fuel
  | pair high isHigh low isLow =>
    exact characters_escaped (escaped_pair high isHigh low isLow r) fuel

theorem text_spelled {s cs : List Char} (written : TextBody s cs) (r : List Char) :
    text (cs ++ '\x22' :: r) = .ok (String.ofList s, r) := by
  have short : s.length ≤ cs.length := by
    induction written with
    | nil => exact Nat.le_refl _
    | cons first _ ih =>
      rw [List.length_append, List.length_cons]
      cases first <;> simp only [List.length_cons, List.length_nil] <;> omega
  have read (fuel : Nat) (enough : s.length < fuel) :
      characters fuel (cs ++ '\x22' :: r) = .ok (s, r) := by
    clear short
    induction written generalizing fuel with
    | nil =>
      obtain ⟨fuel, rfl⟩ := Nat.exists_eq_add_of_lt enough
      simp [characters]
    | cons first _ ih =>
      obtain ⟨fuel, rfl⟩ : ∃ n, fuel = n + 1 := ⟨fuel - 1, by simp at enough; omega⟩
      rw [List.append_assoc, characters_spelled first, ih fuel (Nat.lt_of_succ_lt_succ enough)]
      rfl
  rw [text, read _ (by rw [List.length_append]; omega)]
  rfl

end Reader

/-! ## Values -/

def AllBlank (gap : List Char) : Prop := gap.all Reader.isBlank = true

mutual

/-- The text is the value, without blanks around it. A number is what its digits stand for. -/
inductive Spelled : Json → List Char → Prop where
  | null : Spelled .null ['n', 'u', 'l', 'l']
  | yes : Spelled (.bool true) ['t', 'r', 'u', 'e']
  | no : Spelled (.bool false) ['f', 'a', 'l', 's', 'e']
  | number {cs : List Char} {x : Double} : NumberText (some x) cs → Spelled (.number x) cs
  | negative {cs : List Char} {x : Double} : NumberText (some x) cs →
    Spelled (.number x.neg) ('-' :: cs)
  | text {s cs : List Char} : TextBody s cs →
    Spelled (.text (String.ofList s)) ('\x22' :: (cs ++ ['\x22']))
  | list {vs : List Json} {cs : List Char} : Elements vs cs → Spelled (.list vs) ('[' :: (cs ++ [']']))
  | object {ms : List (String × Json)} {cs : List Char} : Members ms cs →
    Spelled (.object ms) ('\x7b' :: (cs ++ ['\x7d']))

/-- The text is the value with any blanks around it. -/
inductive Spaced : Json → List Char → Prop where
  | mk {v : Json} {before cs after : List Char} : AllBlank before → Spelled v cs → AllBlank after →
    Spaced v (before ++ (cs ++ after))

/-- The elements of a list, with commas between them. -/
inductive Elements : List Json → List Char → Prop where
  | none {gap : List Char} : AllBlank gap → Elements [] gap
  | last {v : Json} {cs : List Char} : Spaced v cs → Elements [v] cs
  | more {v w : Json} {vs : List Json} {cs ds : List Char} : Spaced v cs → Elements (w :: vs) ds →
    Elements (v :: w :: vs) (cs ++ ',' :: ds)

/-- A member: a text, a colon and a value. -/
inductive Member : String × Json → List Char → Prop where
  | mk {v : Json} {before s key between cs : List Char} : AllBlank before → TextBody s key →
    AllBlank between → Spaced v cs →
    Member (String.ofList s, v) (before ++ '\x22' :: (key ++ '\x22' :: (between ++ ':' :: cs)))

/-- The members of an object, with commas between them. -/
inductive Members : List (String × Json) → List Char → Prop where
  | none {gap : List Char} : AllBlank gap → Members [] gap
  | last {m : String × Json} {cs : List Char} : Member m cs → Members [m] cs
  | more {m n : String × Json} {ms : List (String × Json)} {cs ds : List Char} : Member m cs →
    Members (n :: ms) ds → Members (m :: n :: ms) (cs ++ ',' :: ds)

end

theorem Members.length_le {ms : List (String × Json)} {cs : List Char} (members : Members ms cs) :
    ms.length ≤ cs.length := by
  have one {m : String × Json} {cs : List Char} (member : Member m cs) : 1 ≤ cs.length := by
    cases member
    simp only [List.length_append, List.length_cons]
    omega
  induction ms generalizing cs with
  | nil => exact Nat.zero_le _
  | cons m ms ih =>
    cases members with
    | last member => exact one member
    | more member rest =>
      have first := one member
      have later := ih rest
      simp only [List.length_append, List.length_cons] at later ⊢
      omega

namespace Reader

theorem skipBlanks_append {gap : List Char} (blank : AllBlank gap) (s : List Char) :
    skipBlanks (gap ++ s) = skipBlanks s :=
  List.dropWhile_append_of_pos (List.all_eq_true.mp blank)

theorem skipBlanks_cons {c : Char} (other : isBlank c = false) (s : List Char) :
    skipBlanks (c :: s) = c :: s :=
  List.dropWhile_cons_of_neg (by simp [other])

theorem colon_spelled {between : List Char} (blank : AllBlank between) (s : List Char) :
    colon (between ++ ':' :: s) = .ok ((), s) := by
  rw [colon, skipBlanks_append blank, skipBlanks_cons (by decide)]
  rfl

theorem toOption_bind {ε α β : Type} (x : Except ε α) (f : α → Except ε β) :
    (x >>= f).toOption = x.toOption.bind fun a => (f a).toOption := by
  cases x <;> rfl

/-! ## Members one after the other -/

/-- What stands before a member: nothing before the first one, a comma before a later one. -/
inductive Lead : Bool → List Char → Prop where
  | first : Lead true []
  | later {gap : List Char} : AllBlank gap → Lead false (gap ++ [','])

variable {σ : Type} {step : String → σ → Reader σ}

theorem members_blank (first : Bool) {gap : List Char} (blank : AllBlank gap) (fuel : Nat) (acc : σ)
    (s : List Char) :
    members step (fuel + 1) first acc (gap ++ s) = members step (fuel + 1) first acc s := by
  rw [members, members, skipBlanks_append blank]

/-- What is read after the comma. -/
theorem members_afterComma (fuel : Nat) (acc : σ) (s : List Char) :
    members step (fuel + 1) false acc (',' :: s) =
      match skipBlanks s with
      | [] => fail .endInValue []
      | '\x22' :: r =>
        text r >>= fun t => step t.1 acc t.2 >>= fun t => members step fuel false t.1 t.2
      | '\x7d' :: r => fail .trailingComma ('\x7d' :: r) 1
      | r => fail .keyNotText r 1 := rfl

/-- The member after a comma. -/
theorem members_comma {gap : List Char} (blank : AllBlank gap) (fuel : Nat) (acc : σ) (s : List Char) :
    members step (fuel + 1) false acc (',' :: (gap ++ '\x22' :: s)) =
      text s >>= fun t => step t.1 acc t.2 >>= fun t => members step fuel false t.1 t.2 := by
  rw [members_afterComma, skipBlanks_append blank]
  rfl

theorem members_member {first : Bool} {lead before s key between cs : List Char}
    (leads : Lead first lead) (blank : AllBlank before) (written : TextBody s key) (fuel : Nat)
    (acc : σ) (r : List Char) :
    members step (fuel + 1) first acc
        (lead ++ (before ++ '\x22' :: (key ++ '\x22' :: (between ++ ':' :: (cs ++ r))))) =
      step (String.ofList s) acc (between ++ ':' :: (cs ++ r)) >>= fun t =>
        members step fuel false t.1 t.2 := by
  have named := text_spelled written (between ++ ':' :: (cs ++ r))
  cases leads with
  | first =>
    have start (s : List Char) : members step (fuel + 1) true acc ('\x22' :: s) =
        text s >>= fun t => step t.1 acc t.2 >>= fun t => members step fuel false t.1 t.2 := rfl
    rw [List.nil_append, members_blank true blank, start, named]
    rfl
  | later blank' =>
    rw [List.append_assoc, members_blank false blank', List.singleton_append, members_comma blank,
      named]
    rfl

theorem members_end (first : Bool) {gap : List Char} (blank : AllBlank gap) (fuel : Nat) (acc : σ)
    (r : List Char) : members step (fuel + 1) first acc (gap ++ '\x7d' :: r) = .ok (acc, r) := by
  rw [members_blank first blank, members, skipBlanks_cons (by decide)]
  rfl

/-- A member, or the object, ends here. -/
def EndsMember (r : List Char) : Prop := ∃ s, r = ',' :: s ∨ r = '\x7d' :: s

/-- What the reader does with a member is a function of its key and its value. Blanks that are left
after the value do not matter. -/
def Follows (step : String → σ → Reader σ) (next : σ → String × Json → Option σ) : Prop :=
  ∀ ⦃v : Json⦄ ⦃between cs r : List Char⦄ (k : String) (acc : σ), AllBlank between → Spaced v cs →
    EndsMember r → ∃ after, AllBlank after ∧
      (step k acc (between ++ ':' :: (cs ++ r))).toOption = (next acc (k, v)).map (·, after ++ r)

variable {next : σ → String × Json → Option σ}

/-- After a member the object ends, or goes on with a comma. -/
theorem members_more (follows : Follows step next) {m : String × Json} {first : Bool}
    {lead cs r : List Char} (leads : Lead first lead) (written : Member m cs) (fuel : Nat) (acc : σ)
    (ends : EndsMember r) : ∃ after, AllBlank after ∧
      (members step (fuel + 1) first acc (lead ++ (cs ++ r))).toOption =
        (next acc m).bind fun acc => (members step fuel false acc (after ++ r)).toOption := by
  obtain ⟨blank, key, between, spaced⟩ := written
  obtain ⟨after, rest, does⟩ := follows _ acc between spaced ends
  refine ⟨after, rest, ?_⟩
  simp only [List.append_assoc, List.cons_append]
  rw [members_member leads blank key, toOption_bind, does, Option.bind_map]
  rfl

theorem members_spelled (follows : Follows step next) {m : String × Json} {ms : List (String × Json)}
    {first : Bool} {lead cs : List Char} (leads : Lead first lead) (written : Members (m :: ms) cs)
    {fuel : Nat} (enough : ms.length + 1 < fuel) (acc : σ) (r : List Char) :
    (members step fuel first acc (lead ++ (cs ++ '\x7d' :: r))).toOption =
      ((m :: ms).foldlM next acc).map (·, r) := by
  induction ms generalizing m first lead cs fuel acc with
  | nil =>
    obtain ⟨fuel, rfl⟩ : ∃ n, fuel = n + 2 := ⟨fuel - 2, by simp at enough; omega⟩
    cases written with
    | last member =>
      obtain ⟨after, blank, more⟩ :=
        members_more follows leads member (fuel + 1) acc ⟨r, .inr rfl⟩
      rw [more, List.foldlM_cons]
      cases next acc m with
      | none => rfl
      | some acc =>
        rw [Option.bind_some, members_end false blank]
        rfl
  | cons n ms ih =>
    obtain ⟨fuel, rfl⟩ : ∃ n, fuel = n + 1 := ⟨fuel - 1, by omega⟩
    cases written with
    | @more _ _ _ cs ds member rest =>
      obtain ⟨after, blank, more⟩ :=
        members_more follows leads member fuel acc ⟨ds ++ '\x7d' :: r, .inl rfl⟩
      rw [List.append_assoc, List.cons_append, more, List.foldlM_cons]
      cases next acc m with
      | none => rfl
      | some acc =>
        have fewer : ms.length + 1 < fuel := by
          rw [List.length_cons] at enough
          omega
        have later := ih (.later blank) rest fewer acc
        rw [List.append_assoc, List.singleton_append] at later
        exact later

/-- An object is read member by member. -/
theorem objectOf_spelled (follows : Follows step next) {ms : List (String × Json)} {cs : List Char}
    (written : Members ms cs) (acc : σ) (r : List Char) :
    (objectOf step acc (cs ++ '\x7d' :: r)).toOption = (ms.foldlM next acc).map (·, r) := by
  have enough := written.length_le
  rw [objectOf, List.length_append, List.length_cons]
  cases written with
  | none blank =>
    rw [members_end true blank]
    rfl
  | last member => exact members_spelled follows .first (.last member) (by simp) acc r
  | more member rest =>
    exact members_spelled follows .first (.more member rest) (by simp at enough ⊢; omega) acc r

end Reader

end Json

end Splice
