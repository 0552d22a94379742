import Mathlib.Data.List.Pairwise
import Mathlib.Data.String.Basic
import Splice.Command.Run
import Splice.Proofs.Overrides
import Splice.Proofs.Trimming

/-!
# Lists of definitions

A definition is split at its first equals sign; the key is trimmed, the value is not. What a list of
definitions does is said here for whole lists: which lists can be read, which value every key has
afterwards, where an unreadable argument leaves the configuration, and that the order of definitions
matters only for those with one key.
-/
namespace Splice

namespace Definition

/-- The texts before and after the first equals sign. -/
structure Splits (arg : String) (before value : List Char) : Prop where
  parts : arg.toList = before ++ '=' :: value
  first : '=' ∉ before

/-- There is an equals sign, and something other than white space before the first one. -/
def Readable (arg : String) : Prop :=
  ∃ before value, Splits arg before value ∧ ∃ c ∈ before, ¬ IsWhiteSpace c

/-- The trimmed text before the first equals sign, and the text after it. -/
def Defines (arg key value : String) : Prop :=
  ∃ before, Splits arg before value.toList ∧ Trims before key.toList

/-- The trimmed text before the first equals sign. -/
def HasKey (arg key : String) : Prop := ∃ value, Defines arg key value

/-! ## One definition -/

theorem splits_iff {arg : String} {before value : List Char} :
    splitDefinition arg.toList = some (before, value) ↔ Splits arg before value := by
  suffices general : ∀ cs, splitDefinition cs = some (before, value) ↔
      cs = before ++ '=' :: value ∧ '=' ∉ before from
    (general arg.toList).trans ⟨fun h => ⟨h.1, h.2⟩, fun h => ⟨h.parts, h.first⟩⟩
  intro cs
  induction cs generalizing before with
  | nil => simp [splitDefinition]
  | cons c cs ih =>
    unfold splitDefinition
    by_cases sign : c = '='
    · subst sign
      rw [if_pos rfl]
      constructor
      · intro found
        obtain ⟨rfl, rfl⟩ := Prod.mk.inj (Option.some.inj found)
        exact ⟨rfl, List.not_mem_nil⟩
      · rintro ⟨parts, without⟩
        cases before with
        | nil => rw [(List.cons.inj parts).2]
        | cons b before =>
          obtain ⟨rfl, -⟩ := List.cons.inj parts
          exact absurd List.mem_cons_self without
    · rw [if_neg sign, Option.map_eq_some_iff]
      constructor
      · rintro ⟨⟨k, v⟩, found, same⟩
        obtain ⟨rfl, rfl⟩ := Prod.mk.inj same
        obtain ⟨rfl, without⟩ := ih.mp found
        exact ⟨rfl, by simp [Ne.symm sign, without]⟩
      · rintro ⟨parts, without⟩
        cases before with
        | nil => exact absurd (List.cons.inj parts).1 sign
        | cons b before =>
          obtain ⟨rfl, rest⟩ := List.cons.inj parts
          exact ⟨(before, value), ih.mpr ⟨rest, fun later => without (by simp [later])⟩, rfl⟩

theorem Splits.unique {arg : String} {before before' value value' : List Char}
    (splits : Splits arg before value) (splits' : Splits arg before' value') :
    before = before' ∧ value = value' := by
  have same := (splits_iff.mpr splits).symm.trans (splits_iff.mpr splits')
  exact Prod.mk.inj (Option.some.inj same)

theorem readable_iff {arg : String} {before value : List Char} (splits : Splits arg before value) :
    Readable arg ↔ Blank.trim before ≠ [] := by
  rw [Ne, Blank.trim_eq_nil_iff, AllWhiteSpace, not_forall₂]
  constructor
  · rintro ⟨before', value', splits', shown⟩
    obtain ⟨rfl, -⟩ := splits.unique splits'
    simpa using shown
  · intro shown
    exact ⟨before, value, splits, by simpa using shown⟩

theorem defines_iff {arg key text : String} {before value : List Char}
    (splits : Splits arg before value) :
    Defines arg key text ↔ key.toList = Blank.trim before ∧ text.toList = value := by
  constructor
  · rintro ⟨before', splits', trims⟩
    obtain ⟨rfl, rfl⟩ := splits.unique splits'
    exact ⟨(Blank.trim_eq_iff.mpr trims).symm, rfl⟩
  · rintro ⟨key, rfl⟩
    exact ⟨before, splits, Blank.trim_eq_iff.mp key.symm⟩

/-- A definition is read with its key and its value, and an argument that is none is not read. -/
theorem parse_cases (arg : String) :
    (Readable arg ∧ ∃ key value, Defines arg key value ∧
      parseDefinition? arg = some (key, .text value)) ∨
    ¬ Readable arg ∧ parseDefinition? arg = none := by
  cases found : splitDefinition arg.toList with
  | none =>
    refine Or.inr ⟨?_, by simp only [parseDefinition?, found]⟩
    rintro ⟨before, value, splits, -⟩
    rw [splits_iff.mpr splits] at found
    cases found
  | some parts =>
    obtain ⟨before, value⟩ := parts
    have splits := splits_iff.mp found
    simp only [parseDefinition?, found]
    by_cases nothing : Blank.trim before = []
    · refine Or.inr ⟨fun readable => (readable_iff splits).mp readable nothing, ?_⟩
      rw [if_pos (List.isEmpty_iff.mpr nothing)]
    · refine Or.inl ⟨(readable_iff splits).mpr nothing, String.ofList (Blank.trim before),
        String.ofList value, (defines_iff splits).mpr ⟨by simp, by simp⟩, ?_⟩
      rw [if_neg (by simpa using nothing)]

theorem Defines.unique {arg key key' value value' : String} (defines : Defines arg key value)
    (defines' : Defines arg key' value') : key = key' ∧ value = value' := by
  obtain ⟨before, splits, -⟩ := id defines
  obtain ⟨keys, values⟩ := (defines_iff splits).mp defines
  obtain ⟨keys', values'⟩ := (defines_iff splits).mp defines'
  exact ⟨String.toList_inj.mp (keys.trans keys'.symm),
    String.toList_inj.mp (values.trans values'.symm)⟩

theorem parse_isSome_iff {arg : String} : (parseDefinition? arg).isSome ↔ Readable arg := by
  rcases parse_cases arg with ⟨readable, key, value, -, parsed⟩ | ⟨unreadable, parsed⟩
  · simp [parsed, readable]
  · simp [parsed, unreadable]

theorem parse_of_defines {arg key value : String} (readable : Readable arg)
    (defines : Defines arg key value) : parseDefinition? arg = some (key, .text value) := by
  rcases parse_cases arg with ⟨-, key', value', defines', parsed⟩ | ⟨unreadable, -⟩
  · obtain ⟨rfl, rfl⟩ := defines.unique defines'
    exact parsed
  · exact absurd readable unreadable

theorem defines_of_parse {arg key : String} {v : Value}
    (parsed : parseDefinition? arg = some (key, v)) : ∃ value, v = .text value ∧
      Defines arg key value := by
  rcases parse_cases arg with ⟨-, key', value, defines, parsed'⟩ | ⟨-, parsed'⟩
  · rw [parsed'] at parsed
    obtain ⟨rfl, rfl⟩ := Prod.mk.inj (Option.some.inj parsed)
    exact ⟨value, rfl, defines⟩
  · rw [parsed'] at parsed
    cases parsed

theorem hasKey_iff {arg key : String} :
    HasKey arg key ↔
      (splitDefinition arg.toList).map (fun parts => Blank.trim parts.1) = some key.toList := by
  rw [Option.map_eq_some_iff]
  constructor
  · rintro ⟨value, before, splits, trims⟩
    exact ⟨(before, value.toList), splits_iff.mpr splits, Blank.trim_eq_iff.mpr trims⟩
  · rintro ⟨⟨before, value⟩, found, trimmed⟩
    have splits := splits_iff.mp found
    exact ⟨String.ofList value, (defines_iff splits).mpr ⟨trimmed.symm, by simp⟩⟩

/-- An argument with an equals sign that cannot be read has the empty key. -/
theorem HasKey.eq_empty {arg key : String} (named : HasKey arg key) (unreadable : ¬ Readable arg) :
    key = "" := by
  obtain ⟨value, defines⟩ := named
  obtain ⟨before, splits, -⟩ := id defines
  obtain ⟨keys, -⟩ := (defines_iff splits).mp defines
  rw [readable_iff splits, not_not] at unreadable
  rw [unreadable] at keys
  exact String.toList_eq_nil_iff.mp keys

instance (arg : String) : Decidable (Readable arg) := decidable_of_iff _ parse_isSome_iff

instance (arg key : String) : Decidable (HasKey arg key) := decidable_of_iff' _ hasKey_iff

end Definition

/-! ## Insertions commute -/

namespace Entries

variable {k k' : String}

theorem insertInto_of_lt {es : List (String × Value)} (first : ∀ e ∈ es.head?, k < e.1)
    (v : Value) : insertInto k v es = (k, v) :: es := by
  cases es with
  | nil => rfl
  | cons e es =>
    have less : k < e.1 := first e rfl
    simp [insertInto, ne_of_lt less, less]

theorem lt_head_insertInto {es : List (String × Value)} (less : k < k')
    (first : ∀ e ∈ es.head?, k < e.1) (v : Value) :
    ∀ e ∈ (insertInto k' v es).head?, k < e.1 := by
  cases es with
  | nil => exact fun _ head => Option.some.inj head ▸ less
  | cons e es =>
    unfold insertInto
    split_ifs
    · exact fun _ head => Option.some.inj head ▸ less
    · exact fun _ head => Option.some.inj head ▸ less
    · exact first

/-- Entries with different keys can be put in in either order. -/
theorem insertInto_comm (different : k ≠ k') (v v' : Value) (es : List (String × Value)) :
    insertInto k' v' (insertInto k v es) = insertInto k v (insertInto k' v' es) := by
  wlog less : k < k' generalizing k k' v v'
  · have greater : k' < k := lt_of_le_of_ne (not_lt.mp less) different.symm
    exact (this different.symm v' v greater).symm
  have behind : ∀ rest, insertInto k' v' ((k, v) :: rest) = (k, v) :: insertInto k' v' rest := by
    intro rest
    rw [insertInto, if_neg different.symm, if_neg (lt_asymm less)]
  induction es with
  | nil => simp [insertInto, different, less, different.symm, lt_asymm less]
  | cons e es ih =>
    obtain ⟨h, w⟩ := e
    rcases lt_trichotomy k h with before | rfl | after
    · -- the smaller key goes to the front, whether the other one is there or not
      have front : ∀ e ∈ ((h, w) :: es).head?, k < e.1 := by simpa using before
      rw [insertInto_of_lt front, behind, insertInto_of_lt (lt_head_insertInto less front v')]
    · have passes : ∀ rest, insertInto k' v' ((k, w) :: rest) = (k, w) :: insertInto k' v' rest := by
        intro rest
        rw [insertInto, if_neg different.symm, if_neg (lt_asymm less)]
      rw [passes, insertInto, if_pos rfl, behind, insertInto, if_pos rfl]
    · have after' : h < k' := lt_trans after less
      have passes : ∀ rest, insertInto k v ((h, w) :: rest) = (h, w) :: insertInto k v rest := by
        intro rest
        rw [insertInto, if_neg (ne_of_gt after), if_neg (lt_asymm after)]
      have passes' : ∀ rest, insertInto k' v' ((h, w) :: rest) = (h, w) :: insertInto k' v' rest := by
        intro rest
        rw [insertInto, if_neg (ne_of_gt after'), if_neg (lt_asymm after')]
      rw [passes, passes', passes', passes, ih]

end Entries

namespace Config

open Definition

theorem insert_comm {k k' : String} (different : k ≠ k') (c : Config) (v v' : Value) :
    (c.insert k v).insert k' v' = (c.insert k' v').insert k v := by
  exact congrArg Config.mk (Entries.ext (Entries.insertInto_comm different v v' c.replace.toList))

/-! ## Lists -/

theorem define_eq_none_iff (c : Config) (args : List String) :
    (c.define args).2 = none ↔ ∀ arg ∈ args, Readable arg := by
  fun_induction define c args with
  | case1 c => simp
  | case2 c arg rest k v parsed ih =>
    have readable : Readable arg := parse_isSome_iff.mp (by rw [parsed]; rfl)
    rw [ih, List.forall_mem_cons, and_iff_right readable]
  | case3 c arg rest unread =>
    have unreadable : ¬ Readable arg := fun readable => by
      have parsed := parse_isSome_iff.mpr readable
      rw [unread] at parsed
      cases parsed
    simp [unreadable]

/-- An argument that cannot be read ends the list, and what stands before it has been done. -/
theorem define_eq_some {c : Config} {args : List String} {bad : String}
    (failed : (c.define args).2 = some bad) :
    ∃ before after, args = before ++ bad :: after ∧ (∀ arg ∈ before, Readable arg) ∧
      ¬ Readable bad ∧ (c.define args).1 = (c.define before).1 := by
  fun_induction define c args with
  | case1 c => cases failed
  | case2 c arg rest k v parsed ih =>
    have readable : Readable arg := parse_isSome_iff.mp (by rw [parsed]; rfl)
    obtain ⟨before, after, rfl, all, unreadable, same⟩ := ih failed
    refine ⟨arg :: before, after, rfl, List.forall_mem_cons.mpr ⟨readable, all⟩, unreadable, ?_⟩
    rw [same, define, parsed]
  | case3 c arg rest unread =>
    obtain rfl := Option.some.inj failed
    refine ⟨[], rest, rfl, by simp, fun readable => ?_, rfl⟩
    have parsed := parse_isSome_iff.mpr readable
    rw [unread] at parsed
    cases parsed

/-- Definitions that can be read are put in one after the other. -/
theorem define_eq_foldl {args : List String} (readable : ∀ arg ∈ args, Readable arg) (c : Config) :
    c.define args =
      ((args.filterMap parseDefinition?).foldl (fun c e => c.insert e.1 e.2) c, none) := by
  induction args generalizing c with
  | nil => rfl
  | cons arg args ih =>
    obtain ⟨first, rest⟩ := List.forall_mem_cons.mp readable
    obtain ⟨⟨k, v⟩, parsed⟩ := Option.isSome_iff_exists.mp (parse_isSome_iff.mpr first)
    rw [List.filterMap_cons_some parsed, List.foldl_cons, ← ih rest, define, parsed]

/-! ## Reordering -/

/-- No two of the arguments have one key. -/
def KeysDiffer (args : List String) : Prop :=
  args.Pairwise fun a b => ∀ key, HasKey a key → ¬ HasKey b key

theorem KeysDiffer.eq {args : List String} (differ : KeysDiffer args) {a b key : String}
    (inside : a ∈ args) (inside' : b ∈ args) (named : HasKey a key) (named' : HasKey b key) :
    a = b := by
  by_contra other
  have symmetric : Std.Symm fun a b => ∀ key, HasKey a key → ¬ HasKey b key :=
    ⟨fun _ _ apart key named named' => apart key named' named⟩
  exact List.Pairwise.forall differ inside inside' other key named named'

theorem define_perm {args args' : List String} (perm : args.Perm args')
    (readable : ∀ arg ∈ args, Readable arg) (differ : KeysDiffer args) (c : Config) :
    c.define args' = c.define args := by
  have readable' : ∀ arg ∈ args', Readable arg := fun arg inside =>
    readable arg (perm.mem_iff.mpr inside)
  rw [define_eq_foldl readable, define_eq_foldl readable']
  congr 1
  refine ((perm.filterMap parseDefinition?).foldl_eq' ?_ c).symm
  intro x inside y inside' z
  obtain ⟨a, member, parsed⟩ := List.mem_filterMap.mp inside
  obtain ⟨b, member', parsed'⟩ := List.mem_filterMap.mp inside'
  obtain ⟨value, -, defines⟩ := defines_of_parse parsed
  obtain ⟨value', -, defines'⟩ := defines_of_parse parsed'
  by_cases same : x.1 = y.1
  · have one : a = b := differ.eq member member' ⟨value, defines⟩ ⟨value', same ▸ defines'⟩
    obtain rfl : x = y := Option.some.inj (parsed.symm.trans ((congrArg _ one).trans parsed'))
    rfl
  · exact insert_comm same z x.2 y.2

end Config

namespace Command

open Config Definition

theorem define_eq_ok {c : Config} {args : List String} (read : (c.define args).2 = none) :
    define c args = .ok (c.define args).1 := by
  unfold define
  split
  next all => rw [all]
  next failed =>
    rw [failed] at read
    cases read

theorem define_eq_error {c : Config} {args : List String} {bad : String}
    (failed : (c.define args).2 = some bad) :
    define c args = .error (.invalidDefinition bad) := by
  unfold define
  split
  next all =>
    rw [all] at failed
    cases failed
  next bad' failed' =>
    rw [failed'] at failed
    rw [Option.some.inj failed]

/-- Where all arguments have keys and these differ, at most one cannot be read, so the order decides
neither the configuration nor the error. -/
theorem define_perm {args args' : List String} (perm : args.Perm args') (differ : KeysDiffer args)
    (named : ∀ arg ∈ args, ∃ key, HasKey arg key) (c : Config) : define c args' = define c args := by
  cases failed : (c.define args).2 with
  | none =>
    have readable := (define_eq_none_iff c args).mp failed
    unfold define
    rw [Config.define_perm perm readable differ c]
  | some bad =>
    obtain ⟨before, after, rfl, -, unreadable, -⟩ := define_eq_some failed
    have inside : bad ∈ before ++ bad :: after := by simp
    cases failed' : (c.define args').2 with
    | none =>
      have readable := (define_eq_none_iff c args').mp failed'
      exact absurd (readable bad (perm.mem_iff.mp inside)) unreadable
    | some bad' =>
      obtain ⟨before', after', rfl, -, unreadable', -⟩ := define_eq_some failed'
      have inside' : bad' ∈ before ++ bad :: after := perm.mem_iff.mpr (by simp)
      obtain ⟨key, has⟩ := named bad inside
      obtain ⟨key', has'⟩ := named bad' inside'
      obtain rfl := has.eq_empty unreadable
      obtain rfl := has'.eq_empty unreadable'
      rw [define_eq_error failed, define_eq_error failed', differ.eq inside inside' has has']

/-- What a list of definitions does. It can be read if every argument has an equals sign and something
other than white space before it. Then a key has the value of the last definition with this key, and
the value it had before if there is none. Otherwise the first argument that cannot be read is the
error, and the configuration is the one after the arguments before it. Definitions whose keys differ
can be given in any order. -/
theorem definitions_apply_in_order (c : Config) (args : List String) :
    ((c.define args).2 = none ↔ ∀ arg ∈ args, Readable arg) ∧
    ((c.define args).2 = none →
      define c args = .ok (c.define args).1 ∧
      ((c.define args).1.replace.toList.Pairwise fun a b => a.1 < b.1) ∧
      ∀ key,
        (∀ before arg after value, args = before ++ arg :: after → Defines arg key value →
          (∀ later ∈ after, ¬ HasKey later key) →
          (c.define args).1.replace.get? key = some (.text value)) ∧
        ((∀ arg ∈ args, ¬ HasKey arg key) →
          (c.define args).1.replace.get? key = c.replace.get? key)) ∧
    (∀ bad, (c.define args).2 = some bad →
      define c args = .error (.invalidDefinition bad) ∧
      ∃ before after, args = before ++ bad :: after ∧ (∀ arg ∈ before, Readable arg) ∧
        ¬ Readable bad ∧ (c.define args).1 = (c.define before).1) ∧
    ∀ args', args.Perm args' → KeysDiffer args →
      ((∀ arg ∈ args, Readable arg) → c.define args' = c.define args) ∧
      ((∀ arg ∈ args, ∃ key, HasKey arg key) → define c args' = define c args) := by
  refine ⟨define_eq_none_iff c args, ?_, ?_, ?_⟩
  · intro read
    have readable := (define_eq_none_iff c args).mp read
    have parsed : ∀ {d key v}, parseDefinition? d = some (key, v) → HasKey d key := by
      intro d key v parsed
      obtain ⟨value, -, defines⟩ := defines_of_parse parsed
      exact ⟨value, defines⟩
    refine ⟨define_eq_ok read, (c.define args).1.replace.inOrder, fun key => ⟨?_, ?_⟩⟩
    · rintro before arg after value rfl defines last
      exact get?_define_last read (parse_of_defines (readable arg (by simp)) defines)
        fun d inside v same => last d inside (parsed same)
    · intro unnamed
      exact get?_define_other read fun d inside v same => unnamed d inside (parsed same)
  · intro bad failed
    exact ⟨define_eq_error failed, define_eq_some failed⟩
  · intro args' perm differ
    exact ⟨fun readable => Config.define_perm perm readable differ c,
      fun named => define_perm perm differ named c⟩

/-- A key that is defined twice, one that is not defined, a list with an argument that has no key, and
two definitions the other way round. -/
theorem definitions_apply_in_order_overridden :
    let c : Config := ⟨{ toList := [("a", .bool true), ("z", .bool false)] }⟩
    let args := [" a\u3000=1", "b== x", "a=2"]
    let failing := ["a=2", " =x", "z=1"]
    (c.define args).2 = none ∧
      (c.define args).1.replace.get? "a" = some (.text "2") ∧
      (c.define args).1.replace.get? "z" = some (.bool false) ∧
      (c.define failing).2 = some " =x" ∧
      define c failing = .error (.invalidDefinition " =x") ∧
      c.define ["b== x", "a=2"] = c.define ["a=2", "b== x"] := by
  intro c args failing
  have read : (c.define args).2 = none := rfl
  have failed : (c.define failing).2 = some " =x" := rfl
  have keys := ((definitions_apply_in_order c args).2.1 read).2.2
  have defines : Defines "a=2" "a" "2" := ⟨['a'], ⟨rfl, by decide⟩,
    Blank.trim_eq_iff.mp (by decide)⟩
  have perm : ["a=2", "b== x"].Perm ["b== x", "a=2"] := .swap _ _ _
  have differ : KeysDiffer ["a=2", "b== x"] := by
    refine List.pairwise_pair.mpr fun key named named' => ?_
    exact absurd ((hasKey_iff.mp named).trans (hasKey_iff.mp named').symm) (by decide)
  refine ⟨read, (keys "a").1 [" a\u3000=1", "b== x"] "a=2" [] "2" rfl defines (by simp),
    (keys "z").2 (by decide), failed,
    ((definitions_apply_in_order c failing).2.2.1 " =x" failed).1, ?_⟩
  exact ((definitions_apply_in_order c ["a=2", "b== x"]).2.2.2 _ perm differ).1 (by decide)

end Command

end Splice
