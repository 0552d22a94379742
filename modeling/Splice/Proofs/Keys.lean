import Splice.Define.Table

/-!
# The keys of a table

A table is filled key by key. What it answers does not show this: the value for a text is the one of
the first configured key that prints as the text, and the shapes are the shapes of these keys.
-/
namespace Splice

theorem ok_of_toOption {ε α : Type} {r : Except ε α} {a : α} (some : r.toOption = some a) :
    r = .ok a := by
  cases r with
  | ok b =>
    cases some
    rfl
  | error e => cases some

theorem exists_ok_of_any {ε α : Type} {r : Except ε α} {f : α → Bool}
    (holds : r.toOption.any f = true) : ∃ a, r = .ok a ∧ f a = true := by
  cases r with
  | ok a => exact ⟨a, rfl, holds⟩
  | error e => cases holds

/-- Leaving out one key changes nothing for the others. -/
theorem lookup_filter_ne {α β : Type} [BEq α] [LawfulBEq α] {key other : α}
    (different : key ≠ other) (es : List (α × β)) :
    (es.filter fun e => e.1 != other).lookup key = es.lookup key := by
  induction es with
  | nil => rfl
  | cons e es ih =>
    by_cases dropped : e.1 = other
    · have absent : (key == e.1) = false := by simp [dropped, different]
      rw [List.filter_cons_of_neg (by simp [dropped]), ih, List.lookup_cons, absent]
    · rw [List.filter_cons_of_pos (by simp [dropped]), List.lookup_cons, List.lookup_cons, ih]

namespace Entries

theorem lookup_cons (e : String × Value) (es : List (String × Value)) (text : String) :
    (e :: es).lookup text = if text = e.1 then some e.2 else es.lookup text := by
  rw [List.lookup_cons]
  by_cases here : text = e.1
  · simp [here]
  · rw [beq_false_of_ne here, if_neg here]

theorem lookup_insertInto (key text : String) (v : Value) (es : List (String × Value)) :
    (insertInto key v es).lookup text = if text = key then some v else es.lookup text := by
  induction es with
  | nil => simp only [insertInto, lookup_cons]
  | cons e es ih =>
    unfold insertInto
    by_cases equal : key = e.1
    · rw [if_pos equal, lookup_cons, lookup_cons, equal]
      by_cases here : text = e.1 <;> simp [here]
    · by_cases less : key < e.1
      · rw [if_neg equal, if_pos less, lookup_cons]
      · rw [if_neg equal, if_neg less, lookup_cons, lookup_cons, ih]
        by_cases here : text = e.1
        · simp [here, Ne.symm equal]
        · simp [here]

theorem mem_of_get? {es : Entries} {key : String} {v : Value}
    (found : es.get? key = some v) : (key, v) ∈ es.toList := by
  obtain ⟨before, after, list, -⟩ := List.lookup_eq_some_iff.mp found
  simp [list]

/-- An insertion changes what is found for its own key only. -/
theorem get?_insert (es : Entries) (key text : String) (v : Value) :
    (es.insert key v).get? text = if text = key then some v else es.get? text :=
  lookup_insertInto key text v es.toList

end Entries

/-! ## The first key with a printed form -/

/-- The value and the shape of a configured key that prints as the text. -/
def entryFor (text : String) (e : String × Value) : Option (Value × Shape) :=
  match normalizeKey e.1 with
  | some (printed, shape) => if printed = text then some (e.2, shape) else none
  | none => none

/-- The first configured key that prints as the text: its value and its shape. -/
def Config.keyFor (c : Config) (text : String) : Option (Value × Shape) :=
  c.replace.toList.findSome? (entryFor text)

/-- A table answers for the given entries. -/
structure Table.Holds (t : Table) (es : List (String × Value)) : Prop where
  lookup : ∀ text, t.lookup text = (es.findSome? (entryFor text)).map (·.1)
  shapes : ∀ s, s ∈ t.shapes ↔ ∃ text v, es.findSome? (entryFor text) = some (v, s)

namespace Table

theorem holds_nil : Holds {} [] where
  lookup text := rfl
  shapes s := by simp

/-- A key that is no expression, or prints like a key before it, answers nothing. -/
theorem Holds.skip {t : Table} {es : List (String × Value)} (holds : t.Holds es)
    (e : String × Value) (dropped : List String)
    (silent : ∀ text, es.findSome? (entryFor text) = none → entryFor text e = none) :
    Holds { t with droppedReversed := dropped } (es ++ [e]) := by
  have same : ∀ text, (es ++ [e]).findSome? (entryFor text) = es.findSome? (entryFor text) := by
    intro text
    rw [List.findSome?_append]
    cases found : es.findSome? (entryFor text) with
    | some r => rfl
    | none => simp [silent text found]
  constructor
  · intro text
    rw [same]
    exact holds.lookup text
  · intro s
    simp only [same]
    exact holds.shapes s

/-- A key that no key before it prints like answers for its printed form, with its shape. -/
theorem Holds.insert {t : Table} {es : List (String × Value)} (holds : t.Holds es)
    {key printed : String} {shape : Shape} (v : Value)
    (form : normalizeKey key = some (printed, shape)) (known : t.entries.get? printed = none) :
    Holds { t with entries := t.entries.insert printed v, shapes := shape :: t.shapes }
      (es ++ [(key, v)]) := by
  have fresh : es.findSome? (entryFor printed) = none := by
    have unknown := holds.lookup printed
    rw [Table.lookup, known] at unknown
    exact Option.map_eq_none_iff.mp unknown.symm
  have now : ∀ text, (es ++ [(key, v)]).findSome? (entryFor text) =
      if printed = text then some (v, shape) else es.findSome? (entryFor text) := by
    intro text
    rw [List.findSome?_append]
    by_cases here : printed = text
    · subst here
      simp [fresh, entryFor, form]
    · simp [here, entryFor, form]
  constructor
  · intro text
    rw [now, Table.lookup, Entries.get?_insert]
    by_cases here : printed = text
    · simp [here]
    · rw [if_neg (Ne.symm here), if_neg here]
      exact holds.lookup text
  · intro s
    simp only [List.mem_cons, holds.shapes, now]
    constructor
    · rintro (rfl | ⟨text, w, found⟩)
      · exact ⟨printed, v, by simp⟩
      · have other : printed ≠ text := by
          rintro rfl
          simp [fresh] at found
        exact ⟨text, w, by simp [other, found]⟩
    · rintro ⟨text, w, found⟩
      by_cases here : printed = text
      · exact Or.inl (by simp [here] at found; exact found.2.symm)
      · exact Or.inr ⟨text, w, by simpa [here] using found⟩

theorem Holds.add {t : Table} {es : List (String × Value)} (holds : t.Holds es) (key : String)
    (v : Value) : (t.add key v).Holds (es ++ [(key, v)]) := by
  unfold Table.add
  cases form : normalizeKey key with
  | none =>
    refine holds.skip (key, v) _ ?_
    intro text _
    simp [entryFor, form]
  | some entry =>
    obtain ⟨printed, shape⟩ := entry
    cases known : t.entries.get? printed with
    | some w =>
      simp only [Entries.contains, known, Option.isSome_some, if_true]
      refine holds.skip (key, v) _ ?_
      intro text missing
      have unknown := holds.lookup text
      rw [missing] at unknown
      simp only [entryFor, form]
      rw [if_neg]
      rintro rfl
      simp [Table.lookup, known] at unknown
    | none =>
      simp only [Entries.contains, known, Option.isSome_none, Bool.false_eq_true, if_false]
      exact holds.insert v form known

theorem Holds.foldl {t : Table} {before : List (String × Value)} (holds : t.Holds before)
    (es : List (String × Value)) :
    (es.foldl (fun t e => t.add e.1 e.2) t).Holds (before ++ es) := by
  induction es generalizing t before with
  | nil => simpa using holds
  | cons e es ih =>
    have next := ih (holds.add e.1 e.2)
    simpa using next

theorem ofConfig_holds (c : Config) : (ofConfig c).Holds c.replace.toList :=
  holds_nil.foldl c.replace.toList

/-- A table finds the value of the first key that prints as the text. -/
theorem lookup_ofConfig (c : Config) (text : String) :
    (ofConfig c).lookup text = (c.keyFor text).map (·.1) :=
  (ofConfig_holds c).lookup text

/-- A table has the shapes of the keys that are first with their printed form. -/
theorem mayMatch_ofConfig (c : Config) (s : Shape) :
    (ofConfig c).mayMatch s ↔ ∃ text v, c.keyFor text = some (v, s) := by
  rw [mayMatch, List.contains_iff_mem]
  exact (ofConfig_holds c).shapes s

/-- What holds of all entries of a table holds of whatever is found in it. -/
theorem forall_lookup {t : Table} {es : List (String × Value)} {P : String → Value → Prop}
    (entries : t.entries.toList = es) (each : ∀ e ∈ es, P e.1 e.2) :
    ∀ text v, t.lookup text = some v → P text v := by
  intro text v found
  exact each (text, v) (entries ▸ Entries.mem_of_get? found)

end Table

end Splice
