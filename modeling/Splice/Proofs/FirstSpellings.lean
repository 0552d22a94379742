import Splice.Proofs.Reports

/-!
# What a table keeps

A table is filled in the order of the configured keys. It keeps a key if it is the first one with its
printed form and drops every other one, and its entries, its shapes and the list of dropped keys agree
on this.
-/
namespace Splice

/-! ## Bytes -/

/-- The bytes of a text. -/
def bytes (s : String) : List UInt8 := Json.utf8 s.toList

theorem bytes_lt_iff {a b : String} : bytes a < bytes b ↔ a < b := by
  have mono {a b : String} (less : a < b) : bytes a < bytes b :=
    Json.utf8_lt (String.lt_iff_toList_lt.mp less)
  refine ⟨fun less => ?_, mono⟩
  rcases lt_trichotomy a b with below | rfl | above
  · exact below
  · exact absurd less (List.lt_irrefl _)
  · exact absurd less (List.lt_asymm (mono above))

/-! ## One key after the other -/

theorem Entries.length_insertInto {key : String} (v : Value) {es : List (String × Value)}
    (absent : es.lookup key = none) : (insertInto key v es).length = es.length + 1 := by
  fun_induction insertInto key v es with
  | case1 => rfl
  | case2 w rest => simp at absent
  | case3 k w rest different less => rfl
  | case4 k w rest different notLess ih =>
    rw [lookup_cons, if_neg different] at absent
    rw [List.length_cons, ih absent, List.length_cons]

/-- One of the keys prints as the text. -/
def Printed (es : List (String × Value)) (text : String) : Prop :=
  ∃ e ∈ es, ∃ shape, normalizeKey e.1 = some (text, shape)

/-- A key that is no expression or prints like one of the keys before it. -/
def Repeats (before : List (String × Value)) (key : String) : Prop :=
  ∀ text shape, normalizeKey key = some (text, shape) → Printed before text

namespace Table

variable {t : Table} {es : List (String × Value)}

theorem Holds.contains_iff (holds : t.Holds es) (text : String) :
    t.entries.contains text ↔ Printed es text := by
  have found := holds.lookup text
  rw [Table.lookup] at found
  rw [Entries.contains, found, Option.isSome_map, List.findSome?_isSome_iff]
  constructor
  · rintro ⟨e, listed, entry⟩
    obtain ⟨⟨v, shape⟩, entry⟩ := Option.isSome_iff_exists.mp entry
    exact ⟨e, listed, shape, (Config.entryFor_eq_some.mp entry).2⟩
  · rintro ⟨e, listed, shape, form⟩
    exact ⟨e, listed, by rw [Config.entryFor_eq_some.mpr ⟨rfl, form⟩]; rfl⟩

/-- What a table has dropped of the given entries. -/
structure Drops (t : Table) (es : List (String × Value)) : Prop where
  sublist : t.dropped.Sublist (es.map (·.1))
  mem : ∀ key, key ∈ t.dropped ↔
    ∃ before v after, es = before ++ (key, v) :: after ∧ Repeats before key
  count : t.size + t.dropped.length = es.length

theorem drops_nil : Drops {} [] where
  sublist := .slnil
  mem key := by simp [dropped]
  count := rfl

theorem dropped_drop (t : Table) (key : String) :
    ({ t with droppedReversed := key :: t.droppedReversed } : Table).dropped = t.dropped ++ [key] :=
  List.reverse_cons

/-- The entry with which a longer list of entries splits is its last one, or one of those before. -/
theorem split_append {before after : List (String × Value)} {e e' : String × Value}
    (split : es ++ [e] = before ++ e' :: after) :
    (before = es ∧ e' = e) ∨ ∃ after', es = before ++ e' :: after' := by
  rcases List.eq_nil_or_concat after with rfl | ⟨after', last, rfl⟩
  · obtain ⟨same, last⟩ := List.append_inj' split rfl
    exact Or.inl ⟨same.symm, (List.cons.inj last).1.symm⟩
  · rw [List.concat_eq_append, ← List.cons_append, ← List.append_assoc] at split
    exact Or.inr ⟨after', (List.append_inj' split rfl).1⟩

/-- With one more key nothing changes for the keys before it. -/
theorem repeats_append {key : String} (v : Value) (k : String) :
    (∃ before w after, es ++ [(key, v)] = before ++ (k, w) :: after ∧ Repeats before k) ↔
      (∃ before w after, es = before ++ (k, w) :: after ∧ Repeats before k) ∨
        k = key ∧ Repeats es key := by
  constructor
  · rintro ⟨before, w, after, split, repeated⟩
    rcases split_append split with ⟨rfl, last⟩ | ⟨after', rfl⟩
    · obtain ⟨rfl, -⟩ := Prod.mk.inj last
      exact Or.inr ⟨rfl, repeated⟩
    · exact Or.inl ⟨before, w, after', rfl, repeated⟩
  · rintro (⟨before, w, after, rfl, repeated⟩ | ⟨rfl, repeated⟩)
    · exact ⟨before, w, after ++ [(key, v)], by simp, repeated⟩
    · exact ⟨es, v, [], rfl, repeated⟩

theorem Drops.drop {key : String} (drops : t.Drops es) (v : Value) (repeated : Repeats es key) :
    Drops { t with droppedReversed := key :: t.droppedReversed } (es ++ [(key, v)]) := by
  refine ⟨?_, fun k => ?_, ?_⟩
  · rw [dropped_drop, List.map_append]
    exact drops.sublist.append (List.Sublist.refl _)
  · rw [repeats_append, ← drops.mem, dropped_drop]
    simp [repeated]
  · have count := drops.count
    simp only [dropped_drop, size, List.length_append, List.length_singleton] at count ⊢
    omega

theorem Drops.keep {key printed : String} {shape : Shape} (drops : t.Drops es) (v : Value)
    (known : t.entries.get? printed = none) (fresh : ¬ Repeats es key) :
    Drops { t with entries := t.entries.insert printed v, shapes := shape :: t.shapes }
      (es ++ [(key, v)]) := by
  refine ⟨?_, fun k => ?_, ?_⟩
  · rw [List.map_append]
    exact drops.sublist.trans (List.sublist_append_left _ _)
  · rw [repeats_append, ← drops.mem]
    simp [dropped, fresh]
  · have count := drops.count
    simp only [size, Entries.size, Entries.insert, Entries.length_insertInto v known, dropped,
      List.length_append, List.length_singleton] at count ⊢
    omega

theorem Drops.add (drops : t.Drops es) (holds : t.Holds es) (key : String) (v : Value) :
    (t.add key v).Drops (es ++ [(key, v)]) := by
  unfold Table.add
  cases form : normalizeKey key with
  | none => exact drops.drop v fun text shape read => by simp [form] at read
  | some entry =>
    obtain ⟨printed, shape⟩ := entry
    by_cases known : t.entries.contains printed = true
    · simp only [known, if_true]
      refine drops.drop v fun text shape' read => ?_
      obtain ⟨rfl, -⟩ := Prod.mk.inj (Option.some.inj (form.symm.trans read))
      exact (holds.contains_iff printed).mp known
    · simp only [known, Bool.false_eq_true, if_false]
      have absent : t.entries.get? printed = none := by
        rwa [Entries.contains, Option.isSome_iff_ne_none, not_not] at known
      exact drops.keep v absent fun repeated =>
        known ((holds.contains_iff printed).mpr (repeated printed shape form))

theorem Drops.foldl {before : List (String × Value)} (drops : t.Drops before)
    (holds : t.Holds before) (es : List (String × Value)) :
    (es.foldl (fun t e => t.add e.1 e.2) t).Drops (before ++ es) := by
  induction es generalizing t before with
  | nil => simpa using drops
  | cons e es ih =>
    have next := ih (drops.add holds e.1 e.2) (holds.add e.1 e.2)
    simpa using next

theorem ofConfig_drops (c : Config) : (ofConfig c).Drops c.replace.toList :=
  drops_nil.foldl holds_nil c.replace.toList

end Table

/-! ## Keys in order -/

namespace Config

variable {c : Config}

/-- The spelling of the text that comes before all others in the order of the bytes. -/
structure FirstSpelling (c : Config) (text key : String) : Prop where
  spells : c.Spells text key
  least : ∀ other, c.Spells text other → other ≠ key → bytes key < bytes other

theorem firstSpelling_iff {text key : String} :
    c.FirstSpelling text key ↔ IsLeast {k | c.Spells text k} key := by
  constructor
  · rintro ⟨spells, least⟩
    refine ⟨spells, fun other spelled => ?_⟩
    by_cases same : other = key
    · rw [same]
    · exact le_of_lt (bytes_lt_iff.mp (least other spelled same))
  · rintro ⟨spells, least⟩
    refine ⟨spells, fun other spelled different => ?_⟩
    exact bytes_lt_iff.mpr (lt_of_le_of_ne (least spelled) (Ne.symm different))

/-- The keys before a key are the smaller ones. -/
theorem mem_before {before after : List (String × Value)} {key : String} {v : Value}
    (split : c.replace.toList = before ++ (key, v) :: after) (other : String) :
    (∃ w, (other, w) ∈ before) ↔ c.replace.contains other ∧ other < key := by
  have listed (w : Value) : (other, w) ∈ c.replace.toList ↔
      (other, w) ∈ before ∨ (other, w) = (key, v) ∨ (other, w) ∈ after := by
    rw [split, List.mem_append, List.mem_cons]
  constructor
  · rintro ⟨w, inside⟩
    have less : other < key := (Entries.lt_of_split split).1 inside
    refine ⟨?_, less⟩
    rw [Entries.contains, Entries.get?, List.lookup_isSome_iff]
    exact ⟨(other, w), (listed w).mpr (Or.inl inside), by simp⟩
  · rintro ⟨contained, less⟩
    obtain ⟨w, found⟩ := Option.isSome_iff_exists.mp contained
    rcases (listed w).mp (Entries.mem_of_get? found) with inside | same | inside
    · exact ⟨w, inside⟩
    · rw [(Prod.mk.inj same).1] at less
      exact absurd less (lt_irrefl key)
    · exact absurd less (lt_asymm ((Entries.lt_of_split split).2 inside))

end Config

namespace Table

theorem mem_dropped (c : Config) (key : String) :
    key ∈ (ofConfig c).dropped ↔ c.replace.contains key ∧ (normalizeKey key = none ∨
      ∃ text other, c.Spells text key ∧ c.Spells text other ∧ other < key) := by
  rw [(ofConfig_drops c).mem]
  constructor
  · rintro ⟨before, v, after, split, repeated⟩
    have listed : (key, v) ∈ c.replace.toList := by simp [split]
    have contained : c.replace.contains key := by
      rw [Entries.contains, Entries.get?_eq listed, Option.isSome_some]
    refine ⟨contained, ?_⟩
    cases form : normalizeKey key with
    | none => exact Or.inl rfl
    | some printed =>
      obtain ⟨text, shape⟩ := printed
      obtain ⟨e, inside, other⟩ := repeated text shape form
      obtain ⟨contained', less⟩ := (Config.mem_before split e.1).mp ⟨e.2, inside⟩
      exact Or.inr ⟨text, e.1, ⟨contained, shape, form⟩, ⟨contained', other⟩, less⟩
  · rintro ⟨contained, repeated⟩
    obtain ⟨v, found⟩ := Option.isSome_iff_exists.mp contained
    obtain ⟨before, after, split⟩ := List.append_of_mem (Entries.mem_of_get? found)
    refine ⟨before, v, after, split, fun text shape form => ?_⟩
    rcases repeated with unread | ⟨text', other, ⟨-, shape', form'⟩, ⟨contained', spelled⟩, less⟩
    · rw [unread] at form
      cases form
    · obtain ⟨rfl, -⟩ := Prod.mk.inj (Option.some.inj (form'.symm.trans form))
      obtain ⟨w, inside⟩ := (Config.mem_before split other).mpr ⟨contained', less⟩
      exact ⟨(other, w), inside, spelled⟩

theorem kept_iff {c : Config} {key text : String} {shape : Shape}
    (form : normalizeKey key = some (text, shape)) :
    c.replace.contains key ∧ key ∉ (ofConfig c).dropped ↔ c.FirstSpelling text key := by
  rw [mem_dropped]
  constructor
  · rintro ⟨contained, kept⟩
    refine ⟨⟨contained, shape, form⟩, fun other spelled different => ?_⟩
    rw [bytes_lt_iff]
    rcases lt_trichotomy key other with less | same | less
    · exact less
    · exact absurd same.symm different
    · exact absurd ⟨contained, Or.inr ⟨text, other, ⟨contained, shape, form⟩, spelled, less⟩⟩ kept
  · rintro ⟨⟨contained, -⟩, least⟩
    refine ⟨contained, ?_⟩
    rintro ⟨-, unread | ⟨text', other, ⟨-, shape', form'⟩, spelled, less⟩⟩
    · rw [unread] at form
      cases form
    · obtain ⟨rfl, -⟩ := Prod.mk.inj (Option.some.inj (form'.symm.trans form))
      exact absurd (bytes_lt_iff.mp (least other spelled (ne_of_lt less))) (lt_asymm less)

/-- A table answers for each text with the value of its first spelling. -/
theorem lookup_iff (c : Config) (text : String) (v : Value) :
    (ofConfig c).lookup text = some v ↔
      ∃ key, c.FirstSpelling text key ∧ c.replace.get? key = some v := by
  constructor
  · intro found
    rw [lookup_ofConfig, Option.map_eq_some_iff] at found
    obtain ⟨⟨w, shape⟩, found, rfl⟩ := found
    obtain ⟨key, value, -, least⟩ := Config.keyFor_eq_some found
    exact ⟨key, Config.firstSpelling_iff.mpr least, value⟩
  · rintro ⟨key, first, value⟩
    obtain ⟨other, least, answer⟩ := Config.lookup_eq_first first.spells
    rw [answer, least.unique (Config.firstSpelling_iff.mp first), value]

/-- The shapes of a table are those of the keys that it has not dropped. -/
theorem mayMatch_iff (c : Config) (s : Shape) :
    (ofConfig c).mayMatch s ↔ ∃ key text, c.replace.contains key ∧ key ∉ (ofConfig c).dropped ∧
      normalizeKey key = some (text, s) := by
  rw [mayMatch_ofConfig]
  constructor
  · rintro ⟨text, v, found⟩
    obtain ⟨key, -, form, least⟩ := Config.keyFor_eq_some found
    obtain ⟨contained, kept⟩ := (kept_iff form).mpr (Config.firstSpelling_iff.mpr least)
    exact ⟨key, text, contained, kept, form⟩
  · rintro ⟨key, text, contained, kept, form⟩
    have first := Config.firstSpelling_iff.mp ((kept_iff form).mp ⟨contained, kept⟩)
    obtain ⟨⟨v, shape⟩, found⟩ := Config.exists_keyFor first.1
    obtain ⟨other, -, form', least⟩ := Config.keyFor_eq_some found
    obtain rfl := least.unique first
    obtain ⟨-, rfl⟩ := Prod.mk.inj (Option.some.inj (form.symm.trans form'))
    exact ⟨text, v, found⟩

theorem mem_entries (c : Config) (text : String) (v : Value) :
    (text, v) ∈ (ofConfig c).entries.toList ↔ (ofConfig c).lookup text = some v :=
  ⟨Entries.get?_eq, Entries.mem_of_get?⟩

/-- A table answers for a text with the value of the first key, in the order of the bytes, that prints
as the text. It drops, in this order and each once, the keys that are no expressions and those that
print like a smaller key, and no others; every configured key is an entry or is dropped. Its shapes are
those of the keys it has not dropped, and its entries are its answers, in the order of the bytes. -/
theorem ofConfig_keeps_first_spellings (c : Config) :
    let t := ofConfig c
    (∀ text v, t.lookup text = some v ↔
      ∃ key, c.FirstSpelling text key ∧ c.replace.get? key = some v) ∧
    (t.dropped.Pairwise fun a b => bytes a < bytes b) ∧
    (∀ key, key ∈ t.dropped ↔ c.replace.contains key ∧ (normalizeKey key = none ∨
      ∃ text other, c.Spells text key ∧ c.Spells text other ∧ bytes other < bytes key)) ∧
    t.size + t.dropped.length = c.replace.size ∧
    (∀ s, t.mayMatch s ↔ ∃ key text, c.replace.contains key ∧ key ∉ t.dropped ∧
      normalizeKey key = some (text, s)) ∧
    (t.entries.toList.Pairwise fun a b => bytes a.1 < bytes b.1) ∧
    ∀ text v, (text, v) ∈ t.entries.toList ↔ t.lookup text = some v := by
  intro t
  have drops : t.Drops c.replace.toList := ofConfig_drops c
  have keys : (c.replace.toList.map (·.1)).Pairwise (· < ·) := 
    List.pairwise_map.mpr c.replace.inOrder
  simp only [bytes_lt_iff]
  exact ⟨lookup_iff c, keys.sublist drops.sublist, mem_dropped c, drops.count, mayMatch_iff c,
    t.entries.inOrder, mem_entries c⟩

/-- Of two spellings the first one counts; the second one and a key that is no expression are
dropped. -/
theorem ofConfig_keeps_first_spellings_two :
    let c : Config := ⟨{ toList := [("a .b", .text "1"), ("a.b", .text "2"), ("c()", .bool true),
      ("if", .bool false)] }⟩
    (ofConfig c).lookup "a.b" = some (.text "1") ∧
      "a.b" ∈ (ofConfig c).dropped ∧ "if" ∈ (ofConfig c).dropped ∧
      (ofConfig c).mayMatch .call = true ∧ (ofConfig c).mayMatch .identifier = false := by
  intro c
  have spaced : c.Spells "a.b" "a .b" := ⟨by decide +kernel, .member, by decide +kernel⟩
  have plain : c.Spells "a.b" "a.b" := ⟨by decide +kernel, .member, by decide +kernel⟩
  obtain ⟨lookup, -, dropped, -, shapes, -, -⟩ := ofConfig_keeps_first_spellings c
  refine ⟨(lookup _ _).mpr ⟨"a .b", ⟨spaced, ?_⟩, by decide +kernel⟩,
    (dropped _).mpr ⟨by decide +kernel, Or.inr ⟨"a.b", "a .b", plain, spaced, by decide +kernel⟩⟩,
    (dropped _).mpr ⟨by decide +kernel, Or.inl (by decide +kernel)⟩,
    (shapes _).mpr ⟨"c()", "c()", by decide +kernel, by decide +kernel, by decide +kernel⟩,
    by decide +kernel⟩
  rintro other ⟨contained, shape, form⟩ different
  have all : ∀ e ∈ c.replace.toList, e.1 ≠ "a .b" → bytes "a .b" < bytes e.1 := by decide +kernel
  obtain ⟨v, found⟩ := Option.isSome_iff_exists.mp contained
  exact all (other, v) (Entries.mem_of_get? found) different

end Table

end Splice
