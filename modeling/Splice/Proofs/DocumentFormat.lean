import Splice.Error
import Splice.Proofs.JsonSpelling

/-!
# The format of configurations

Which documents are configurations, and what they configure. A document is an object whose only
field is an object of booleans, numbers and texts, or a list that holds at most such an object; of
several entries with one key the last one counts.
-/
namespace Splice

open Json (Spelled Spaced Elements Members AllBlank NoNumber)

/-! ## Documents as values -/

namespace Json

/-- The value that a key can be replaced by. -/
def value? : Json → Option Value
  | bool b => some (.bool b)
  | number x => some (.number x)
  | text s => some (.text s)
  | _ => none

/-- The entries of an object all of whose values are booleans, numbers or texts, as they are
written. -/
def replacements? : Json → Option (List (String × Value))
  | object ms => ms.mapM fun m => m.2.value?.map (m.1, ·)
  | _ => none

/-- The entries of a document that is a configuration. -/
def configured? : Json → Option (List (String × Value))
  | object [] => some []
  | object [(name, v)] => if name = "replace" then v.replacements? else none
  | list [] => some []
  | list [v] => v.replacements?
  | _ => none

end Json

/-! ## Insertions -/

namespace Entries

/-- The entries put in one after the other. -/
def ofList (list : List (String × Value)) : Entries := list.foldl (fun es e => es.insert e.1 e.2) {}

/-- Of several entries with one key the last one counts. -/
theorem get?_foldl_insert (es : Entries) (list : List (String × Value)) (key : String) :
    (list.foldl (fun es e => es.insert e.1 e.2) es).get? key =
      (list.reverse.lookup key).or (es.get? key) := by
  induction list generalizing es with
  | nil => rfl
  | cons e list ih =>
    rw [List.foldl_cons, ih, get?_insert, List.reverse_cons, List.lookup_append, Option.or_assoc,
      Entries.lookup_cons]
    congr 1
    split <;> simp

/-- The entries of an object are put in one after the other. -/
theorem foldlM_insert (ms : List (String × Json)) (es : Entries) :
    ms.foldlM (fun es (m : String × Json) => m.2.value?.map (es.insert m.1)) es =
      (ms.mapM fun (m : String × Json) => m.2.value?.map (m.1, ·)).map
        fun list => list.foldl (fun es e => es.insert e.1 e.2) es := by
  induction ms generalizing es with
  | nil => rfl
  | cons m ms ih =>
    rw [List.foldlM_cons, List.mapM_cons]
    cases m.2.value? with
    | none => rfl
    | some v =>
      simp only [Option.map_some, Option.bind_eq_bind, Option.bind_some, ih]
      cases ms.mapM fun (m : String × Json) => m.2.value?.map (m.1, ·) <;> rfl

end Entries

namespace Config

open Json (Reader)
open Json.Reader

/-! ## Values -/

theorem item_blank {gap : List Char} (blank : AllBlank gap) (depth : Nat) (s : List Char) :
    Reader.item depth (gap ++ s) = Reader.item depth s := by
  cases depth <;> rw [Reader.item, Reader.item, skipBlanks_append blank]

/-- A character that a value of its own may begin with. -/
def isPlain (c : Char) : Bool := !Reader.isBlank c && c != '[' && c != '\x7b'

/-- What is not in brackets is a value of its own. -/
theorem item_plain {c : Char} (plain : isPlain c = true) (depth : Nat) (s : List Char) :
    Reader.item depth (c :: s) = Reader.scalar (c :: s) := by
  simp only [isPlain, Bool.and_eq_true, Bool.not_eq_true', bne_iff_ne] at plain
  obtain ⟨⟨visible, bracket⟩, brace⟩ := plain
  cases depth <;>
  · rw [Reader.item, skipBlanks_cons visible]
    split
    next same => exact absurd (List.cons.inj same).1 bracket
    next same => exact absurd (List.cons.inj same).1 brace
    next => rfl

section Digit

variable {c : Char} (digit : c.isDigit = true)

include digit

theorem ne_of_isDigit {d : Char} (other : d.isDigit = false) : c ≠ d := by
  rintro rfl
  rw [digit] at other
  cases other

theorem isPlain_of_isDigit : isPlain c = true := by
  simp [isPlain, isBlank, ne_of_isDigit digit]

theorem scalar_digit (s : List Char) :
    Reader.scalar (c :: s) = Reader.number false (c :: s) := by
  unfold Reader.scalar
  split
  next same => exact absurd (List.cons.inj same).1 (ne_of_isDigit digit rfl)
  next same => exact absurd (List.cons.inj same).1 (ne_of_isDigit digit rfl)
  next same => exact absurd (List.cons.inj same).1 (ne_of_isDigit digit rfl)
  next same => exact absurd (List.cons.inj same).1 (ne_of_isDigit digit rfl)
  next same => exact absurd (List.cons.inj same).1 (ne_of_isDigit digit rfl)
  next same =>
    obtain ⟨rfl, rfl⟩ := List.cons.inj same
    exact if_pos digit
  next same => cases same

end Digit

/-- What a value of its own is read as, with what is left after it. -/
theorem scalar_spelled {v : Json} {cs r : List Char} (spelled : Spelled v cs) (ends : NoNumber r)
    (flat : (∀ vs, v ≠ .list vs) ∧ ∀ ms, v ≠ .object ms) :
    ∃ c s i, cs ++ r = c :: s ∧ isPlain c = true ∧ Reader.scalar (c :: s) = .ok (i, r) ∧
      valueOf? i = v.value? := by
  cases spelled with
  | null => exact ⟨_, _, .null, rfl, by decide, rfl, rfl⟩
  | yes => exact ⟨_, _, .bool true, rfl, by decide, rfl, rfl⟩
  | no => exact ⟨_, _, .bool false, rfl, by decide, rfl, rfl⟩
  | number written =>
    obtain ⟨i, read, value⟩ := Reader.number_spelled written false ends
    obtain ⟨d, s, rfl, digit⟩ := written.head
    rw [List.cons_append, ← scalar_digit digit] at read
    exact ⟨_, _, i, rfl, isPlain_of_isDigit digit, read, value⟩
  | negative written =>
    obtain ⟨i, read, value⟩ := Reader.number_spelled written true ends
    exact ⟨_, _, i, rfl, by decide, read, value⟩
  | @text s cs written =>
    refine ⟨'\x22', cs ++ '\x22' :: r, .text (String.ofList s), by simp, by decide, ?_, rfl⟩
    change (Reader.text _ >>= _) = _
    rw [text_spelled written r]
    rfl
  | @list vs _ elements => exact absurd rfl (flat.1 vs)
  | @object ms _ members => exact absurd rfl (flat.2 ms)

/-- An item without a value gives none, whatever is left after it. -/
theorem toOption_noValue {i : Json.Item} (nothing : valueOf? i = none) {α : Type}
    (x : Except Json.Fault (α × List Char)) :
    ((x >>= fun t => pure (i, t.2)).toOption.bind fun t => (valueOf? t.1).map (·, t.2)) = none := by
  cases x with
  | error f => rfl
  | ok t =>
    change (valueOf? i).map (·, t.2) = none
    rw [nothing]
    rfl

/-- A boolean, a number or a text is read as an item with its value, and nothing else is. -/
theorem item_spelled {v : Json} {cs r : List Char} (spelled : Spelled v cs) (ends : NoNumber r)
    (depth : Nat) : ((Reader.item depth (cs ++ r)).toOption.bind fun t => (valueOf? t.1).map (·, t.2)) =
      v.value?.map (·, r) := by
  by_cases flat : (∀ vs, v ≠ .list vs) ∧ ∀ ms, v ≠ .object ms
  · obtain ⟨c, s, i, text, plain, read, value⟩ := scalar_spelled spelled ends flat
    rw [text, item_plain plain, read, ← value]
    rfl
  · cases spelled with
    | list elements =>
      cases depth with
      | zero => rfl
      | succ depth => exact toOption_noValue rfl _
    | object members =>
      cases depth with
      | zero => rfl
      | succ depth => exact toOption_noValue rfl _
    | null | yes | no | number | negative | text => exact absurd ⟨nofun, nofun⟩ flat

/-! ## Entries -/

theorem noNumber_of_endsMember {r : List Char} (ends : EndsMember r) : NoNumber r := by
  obtain ⟨s, rfl | rfl⟩ := ends <;>
  · intro c first
    cases first
    decide

theorem noNumber_append {gap r : List Char} (blank : AllBlank gap) (ends : NoNumber r) :
    NoNumber (gap ++ r) := by
  cases gap with
  | nil => exact ends
  | cons c gap =>
    intro d first
    cases first
    have isBlank : Reader.isBlank c = true := List.all_eq_true.mp blank c List.mem_cons_self
    simp only [Reader.isBlank, Bool.or_eq_true, beq_iff_eq] at isBlank
    rcases isBlank with ((rfl | rfl) | rfl) | rfl <;> decide

theorem toOption_misfit {α : Type} (cause : Json.Cause) (s : List Char) :
    (Reader.misfit cause s : Except Json.Fault (α × List Char)).toOption = none := by
  unfold Reader.misfit
  split <;> rfl

/-- What is done with the value of an entry. -/
theorem toOption_put (es : Entries) (key : String) (t : Json.Item × List Char) :
    (match valueOf? t.1 with
      | some v => pure (es.insert key v, t.2)
      | none => Reader.misfit (.noVariant "ReplaceValue") t.2).toOption =
      ((valueOf? t.1).map (·, t.2)).map fun p => (es.insert key p.1, p.2) := by
  cases valueOf? t.1 with
  | none => exact toOption_misfit _ _
  | some v => rfl

/-- An entry is put in if its value is a boolean, a number or a text. -/
theorem entry_follows (depth : Nat) :
    Follows (entry depth) fun es m => m.2.value?.map (es.insert m.1) := by
  intro v between cs r key es blank spaced ends
  obtain ⟨before, spelled, after⟩ := spaced
  rename_i lead cs trail
  refine ⟨trail, after, ?_⟩
  have found := congrArg (Option.map fun p => (es.insert key p.1, p.2))
    (item_spelled spelled (noNumber_append after (noNumber_of_endsMember ends)) depth)
  rw [Option.map_bind] at found
  have shape : lead ++ (cs ++ trail) ++ r = lead ++ (cs ++ (trail ++ r)) := by simp
  rw [entry, colon_spelled blank, shape]
  change (Reader.item depth _ >>= fun t => match valueOf? t.1 with
      | some v => pure (es.insert key v, t.2)
      | none => Reader.misfit (.noVariant "ReplaceValue") t.2).toOption = _
  rw [item_blank before, toOption_bind]
  simp only [toOption_put]
  refine found.trans ?_
  cases v.value? <;> rfl

theorem toOption_refuse {α : Type} (expected : String) (s : List Char) :
    (Reader.refuse expected s : Except Json.Fault (α × List Char)).toOption = none := by
  unfold Reader.refuse
  split
  · rfl
  · rfl
  · rw [toOption_bind]
    exact Option.bind_eq_none_iff.mpr fun _ _ => rfl

/-- Only an object of booleans, numbers and texts is read as entries. -/
theorem entries_spelled {v : Json} {gap cs r : List Char} (blank : AllBlank gap)
    (spelled : Spelled v cs) (ends : NoNumber r) (depth : Nat) :
    (entries depth (gap ++ (cs ++ r))).toOption =
      (v.replacements?.map Entries.ofList).map (·, r) := by
  have refused {c : Char} {s : List Char} (visible : Reader.isBlank c = false) (brace : c ≠ '\x7b') :
      (entries depth (gap ++ c :: s)).toOption = none := by
    rw [entries, skipBlanks_append blank, skipBlanks_cons visible]
    split
    next same => cases same
    next same => exact absurd (List.cons.inj same).1 brace
    next => exact toOption_refuse _ _
  by_cases flat : (∀ vs, v ≠ .list vs) ∧ ∀ ms, v ≠ .object ms
  · obtain ⟨c, s, i, text, plain, -, -⟩ := scalar_spelled spelled ends flat
    simp only [isPlain, Bool.and_eq_true, Bool.not_eq_true', bne_iff_ne] at plain
    rw [text, refused plain.1.1 plain.2]
    cases v with
    | object ms => exact absurd rfl (flat.2 ms)
    | _ => rfl
  · cases spelled with
    | list elements => exact refused (by decide) (by decide)
    | @object ms cs members =>
      have listed := objectOf_spelled (entry_follows depth) members {} r
      rw [Entries.foldlM_insert] at listed
      have shape : '\x7b' :: (cs ++ ['\x7d']) ++ r = '\x7b' :: (cs ++ '\x7d' :: r) := by simp
      rw [shape, entries, skipBlanks_append blank, skipBlanks_cons (by decide)]
      exact listed
    | null | yes | no | number | negative | text => exact absurd ⟨nofun, nofun⟩ flat

/-! ## Documents -/

/-- The field is taken once, and no other one is. -/
def takeField (found : Option Entries) (m : String × Json) : Option (Option Entries) :=
  if m.1 = "replace" ∧ found = none then m.2.replacements?.map fun list => some (.ofList list) else none

theorem field_follows : Follows field takeField := by
  intro v between cs r name found blank spaced ends
  obtain ⟨before, spelled, after⟩ := spaced
  rename_i lead cs trail
  refine ⟨trail, after, ?_⟩
  by_cases named : name = "replace"
  · subst named
    cases found with
    | some es => exact toOption_misfit _ _
    | none =>
      have listed := entries_spelled before spelled
        (noNumber_append after (noNumber_of_endsMember ends)) (maxDepth - 2)
      have shape : lead ++ (cs ++ trail) ++ r = lead ++ (cs ++ (trail ++ r)) := by simp
      change (Reader.colon _ >>= fun t => entries (maxDepth - 2) t.2 >>= fun t =>
        pure (some t.1, t.2)).toOption = _
      rw [colon_spelled blank, shape]
      change (entries (maxDepth - 2) _ >>= fun t => pure (some t.1, t.2)).toOption = _
      have taken : takeField none ("replace", v) = v.replacements?.map fun list => some (.ofList list) :=
        if_pos ⟨rfl, rfl⟩
      rw [toOption_bind, listed, taken]
      cases v.replacements? <;> rfl
  · have refused : field name found (between ++ ':' :: (lead ++ (cs ++ trail) ++ r)) = Reader.misfit
        (.unknownField name "replace") (between ++ ':' :: (lead ++ (cs ++ trail) ++ r)) :=
      if_pos named
    have left : takeField found (name, v) = none := if_neg fun same => named same.1
    rw [refused, toOption_misfit, left]
    rfl

/-- All fields of an object together. -/
theorem foldlM_takeField (ms : List (String × Json)) :
    (ms.foldlM takeField none).map (·.getD {}) = (Json.object ms).configured?.map Entries.ofList := by
  match ms with
  | [] => rfl
  | [(name, v)] =>
    by_cases named : name = "replace"
    · subst named
      have taken : takeField none ("replace", v) = v.replacements?.map fun list => some (.ofList list) :=
        if_pos ⟨rfl, rfl⟩
      rw [List.foldlM_cons, taken, Json.configured?, if_pos rfl]
      cases v.replacements? <;> rfl
    · have left : takeField none (name, v) = none := if_neg fun same => named same.1
      rw [List.foldlM_cons, left, Json.configured?, if_neg named]
      rfl
  | m :: n :: ms =>
    have second (es : Entries) : takeField (some es) n = none := if_neg fun same => by cases same.2
    rw [List.foldlM_cons]
    by_cases named : m.1 = "replace"
    · have taken : takeField none m = m.2.replacements?.map fun list => some (.ofList list) :=
        if_pos ⟨named, rfl⟩
      rw [taken]
      cases m.2.replacements? with
      | none => rfl
      | some list =>
        simp only [Option.map_some, Option.bind_eq_bind, Option.bind_some, List.foldlM_cons, second]
        rfl
    · have left : takeField none m = none := if_neg fun same => named same.1
      rw [left]
      rfl

theorem finished_blank {gap : List Char} (blank : AllBlank gap) : Reader.finished gap = .ok ((), []) := by
  have nothing : skipBlanks gap = [] := by
    have skipped := skipBlanks_append blank []
    rwa [List.append_nil] at skipped
  rw [Reader.finished, nothing]

/-- No value begins with a blank or a closing bracket. -/
theorem spelled_head {v : Json} {cs : List Char} (spelled : Spelled v cs) :
    ∃ c s, cs = c :: s ∧ Reader.isBlank c = false ∧ c ≠ ']' := by
  cases spelled with
  | null | yes | no | negative | text | list | object => exact ⟨_, _, rfl, by decide, by decide⟩
  | number written =>
    obtain ⟨d, s, rfl, digit⟩ := written.head
    have plain := isPlain_of_isDigit digit
    simp only [isPlain, Bool.and_eq_true, Bool.not_eq_true'] at plain
    exact ⟨d, s, rfl, plain.1.1, ne_of_isDigit digit rfl⟩

theorem listEnd_comma {gap : List Char} (blank : AllBlank gap) (s : List Char) :
    (listEnd (gap ++ ',' :: s)).toOption = none := by
  rw [listEnd, skipBlanks_append blank, skipBlanks_cons (by decide)]
  split
  next same => cases same
  next same => cases same
  next same =>
    obtain ⟨-, rfl⟩ := List.cons.inj same
    split <;> rfl
  next => rfl

/-- The first element of a list is read as entries, and the list has to end after it. -/
theorem ofList_value {v : Json} {cs r : List Char} (spaced : Spaced v cs) (ends : NoNumber r) :
    ∃ after, AllBlank after ∧ (ofList (cs ++ r)).toOption =
      (v.replacements?.map Entries.ofList).bind fun es =>
        (listEnd (after ++ r)).toOption.map fun t => (es, t.2) := by
  obtain @⟨_, before, cs, after, blank, spelled, behind⟩ := spaced
  refine ⟨after, behind, ?_⟩
  have nothing : AllBlank [] := rfl
  have listed := entries_spelled nothing spelled (noNumber_append behind ends) (maxDepth - 2)
  obtain ⟨c, s, rfl, visible, bracket⟩ := spelled_head spelled
  have shape : before ++ (c :: s ++ after) ++ r = before ++ c :: (s ++ (after ++ r)) := by simp
  rw [List.nil_append, List.cons_append] at listed
  have start : ofList (before ++ c :: (s ++ (after ++ r))) =
      entries (maxDepth - 2) (c :: (s ++ (after ++ r))) >>= fun t =>
        listEnd t.2 >>= fun u => pure (t.1, u.2) := by
    rw [ofList, skipBlanks_append blank, skipBlanks_cons visible]
    split
    next same => cases same
    next same => exact absurd (List.cons.inj same).1 bracket
    next => rfl
  rw [shape, start, toOption_bind, listed]
  cases v.replacements? with
  | none => rfl
  | some list =>
    simp only [Option.map_some, Option.bind_some, toOption_bind]
    cases (listEnd (after ++ r)).toOption <;> rfl

/-- A list is read as the object that it holds, and holds no other one. -/
theorem ofList_spelled {vs : List Json} {cs : List Char} (elements : Elements vs cs) (r : List Char) :
    (ofList (cs ++ ']' :: r)).toOption = ((Json.list vs).configured?.map Entries.ofList).map (·, r) := by
  cases elements with
  | none blank =>
    rw [ofList, skipBlanks_append blank, skipBlanks_cons (by decide)]
    rfl
  | @last v _ spaced =>
    have ends : NoNumber (']' :: r) := by
      intro c first
      cases first
      decide
    obtain ⟨after, blank, read⟩ := ofList_value spaced ends
    have closed : listEnd (after ++ ']' :: r) = .ok ((), r) := by
      rw [listEnd, skipBlanks_append blank, skipBlanks_cons (by decide)]
      rfl
    rw [read, closed, Json.configured?]
    cases v.replacements? <;> rfl
  | @more v w vs cs ds spaced rest =>
    have ends : NoNumber (',' :: (ds ++ ']' :: r)) := by
      intro c first
      cases first
      decide
    obtain ⟨after, blank, read⟩ := ofList_value spaced ends
    rw [List.append_assoc, List.cons_append, read, listEnd_comma blank]
    cases v.replacements? <;> rfl

/-- A document is read as what it configures. -/
theorem document_spelled {doc : Json} {text : List Char} (spelled : Spaced doc text) :
    (document text).toOption =
      doc.configured?.map fun list => (⟨Entries.ofList list⟩, []) := by
  obtain @⟨_, before, cs, after, blank, spelled, behind⟩ := spelled
  have done {x : Except Json.Fault (Entries × List Char)} {es : Option Entries}
      (read : x.toOption = es.map (·, after)) :
      (x >>= fun t => Reader.finished t.2 >>= fun u => pure (Config.mk t.1, u.2)).toOption =
        es.map fun es => (⟨es⟩, []) := by
    rw [toOption_bind, read]
    cases es with
    | none => rfl
    | some es =>
      change (Reader.finished after >>= fun u => pure (Config.mk es, u.2)).toOption = _
      rw [finished_blank behind]
      rfl
  by_cases flat : (∀ vs, doc ≠ .list vs) ∧ ∀ ms, doc ≠ .object ms
  · have ends : NoNumber after := by
      have nothing : NoNumber [] := by
        intro c first
        cases first
      simpa using noNumber_append behind nothing
    obtain ⟨c, s, i, shape, plain, -, -⟩ := scalar_spelled spelled ends flat
    simp only [isPlain, Bool.and_eq_true, Bool.not_eq_true', bne_iff_ne] at plain
    have refused : document (before ++ c :: s) = (Reader.refuse "struct DefineConfig" (c :: s) >>= fun t =>
        Reader.finished t.2 >>= fun u => pure (Config.mk t.1, u.2)) := by
      rw [document, skipBlanks_append blank, skipBlanks_cons plain.1.1]
      split
      next same => cases same
      next same => exact absurd (List.cons.inj same).1 plain.1.2
      next same => exact absurd (List.cons.inj same).1 plain.2
      next => rfl
    rw [shape, refused, toOption_bind, toOption_refuse]
    cases doc with
    | list vs => exact absurd rfl (flat.1 vs)
    | object ms => exact absurd rfl (flat.2 ms)
    | _ => rfl
  · cases spelled with
    | @list vs cs elements =>
      have shape : '[' :: (cs ++ [']']) ++ after = '[' :: (cs ++ ']' :: after) := by simp
      rw [shape, document, skipBlanks_append blank, skipBlanks_cons (by decide)]
      refine (done (ofList_spelled elements after)).trans ?_
      cases (Json.list vs).configured? <;> rfl
    | @object ms cs members =>
      have shape : '\x7b' :: (cs ++ ['\x7d']) ++ after = '\x7b' :: (cs ++ '\x7d' :: after) := by simp
      have fields := objectOf_spelled field_follows members none after
      have read : (Reader.objectOf field none (cs ++ '\x7d' :: after) >>= fun t =>
          pure (t.1.getD {}, t.2)).toOption =
            ((Json.object ms).configured?.map Entries.ofList).map (·, after) := by
        rw [toOption_bind, fields, ← foldlM_takeField]
        cases ms.foldlM takeField none <;> rfl
      rw [shape, document, skipBlanks_append blank, skipBlanks_cons (by decide)]
      have all := done read
      rw [bind_assoc] at all
      refine all.trans ?_
      cases (Json.object ms).configured? <;> rfl
    | null | yes | no | number | negative | text => exact absurd ⟨nofun, nofun⟩ flat

/-- A document gives a configuration exactly if it is an object with no member but at most one
`replace`, which is an object of booleans, numbers and texts, or a list of at most one such object.
What is configured for a key is the last entry with this key. Every other document is an error. -/
theorem parse_spelled {doc : Json} {source : String} (spelled : Spaced doc source.toList) :
    ((∃ c, parse source = .ok c) ↔ ∃ list, doc.configured? = some list) ∧
      (∀ c list, parse source = .ok c → doc.configured? = some list →
        (c.replace.toList.Pairwise fun a b => a.1 < b.1) ∧
        ∀ key, c.replace.get? key = list.reverse.lookup key) ∧
      (doc.configured? = none →
        ∃ message, (parse source).mapError Error.config = .error (.config message)) := by
  have read := document_spelled spelled
  cases result : document source.toList with
  | error f =>
    have refused : parse source = .error (f.message source.toList) := by rw [parse, result]
    have other : doc.configured? = none := by
      rw [result] at read
      exact Option.map_eq_none_iff.mp read.symm
    rw [refused, other]
    refine ⟨⟨?_, ?_⟩, ?_, fun _ => ⟨_, rfl⟩⟩
    · rintro ⟨c, same⟩
      cases same
    · rintro ⟨list, same⟩
      cases same
    · intro c list same
      cases same
  | ok t =>
    have accepted : parse source = .ok t.1 := by rw [parse, result]
    rw [result] at read
    obtain ⟨list, configures, same⟩ := Option.map_eq_some_iff.mp read.symm
    rw [accepted, configures]
    refine ⟨⟨fun _ => ⟨list, rfl⟩, fun _ => ⟨t.1, rfl⟩⟩, ?_, ?_⟩
    · intro c other found equal
      obtain rfl := Except.ok.inj found
      obtain rfl := Option.some.inj equal
      refine ⟨t.1.replace.inOrder, fun key => ?_⟩
      rw [← same]
      exact (Entries.get?_foldl_insert {} list key).trans Option.or_none
    · intro none
      cases none

/-- One key twice, the second time with an escape, and a number with a sign, a point and an exponent. -/
theorem parse_spelled_twice :
    ∃ c, parse "[\x7b\"a\": 1,\"\\u0061\":true, \"b\":-2.5e1\x7d ]" = .ok c ∧
      (c.replace.toList.Pairwise fun a b => a.1 < b.1) ∧
      ∀ key, c.replace.get? key =
        [("b", .number (Double.ofNat 25).neg), ("a", .bool true), ("a", .number (.ofNat 1))].lookup
          key := by
  have blank : AllBlank [' '] := by
    unfold AllBlank
    decide
  have nothing : AllBlank [] := rfl
  have one : Spelled (.number (.ofNat 1)) ['1'] := by
    have whole : Json.WholeText ['1'] := .digits ⟨by decide, by simp⟩ (by decide)
    have written := Json.NumberText.mk whole .none .none
    rw [show Json.numberValue? ['1'] [] none = some (.ofNat 1) by decide +kernel] at written
    exact .number written
  have other : Spelled (.number (Double.ofNat 25).neg) ['-', '2', '.', '5', 'e', '1'] := by
    have whole : Json.WholeText ['2'] := .digits ⟨by decide, by simp⟩ (by decide)
    have fraction : Json.FractionText ['5'] ['.', '5'] := .digits ⟨by decide, by simp⟩
    have exponent : Json.ExponentText (some 1) ['e', '1'] :=
      @Json.ExponentText.positive 'e' [] ['1'] (.inl rfl) (.inl rfl) ⟨by decide, by simp⟩
    have written := Json.NumberText.mk whole fraction exponent
    rw [show Json.numberValue? ['2'] ['5'] (some 1) = some (.ofNat 25) by decide +kernel] at written
    exact .negative written
  have a : Json.TextBody ['a'] ['a'] := .cons (.plain (by decide) (by decide) (by decide)) .nil
  have b : Json.TextBody ['b'] ['b'] := .cons (.plain (by decide) (by decide) (by decide)) .nil
  have code : Json.CharText 'a' ['\\', 'u', '0', '0', '6', '1'] :=
    .numbered (n := 0x61) (by decide) (by decide)
  have first := Json.Member.mk nothing a nothing (.mk blank one nothing)
  have second := Json.Member.mk nothing (.cons code .nil) nothing (.mk nothing .yes nothing)
  have third := Json.Member.mk blank b nothing (.mk nothing other nothing)
  have object := Spelled.object (.more first (.more second (.last third)))
  have list := Spelled.list (.last (.mk nothing object blank))
  have document : Spaced _ "[\x7b\"a\": 1,\"\\u0061\":true, \"b\":-2.5e1\x7d ]".toList :=
    .mk nothing list nothing
  obtain ⟨accepts, finds, -⟩ := parse_spelled document
  obtain ⟨c, read⟩ := accepts.mpr ⟨_, rfl⟩
  exact ⟨c, read, finds c _ read rfl⟩

end Config

end Splice
