import Mathlib.Data.String.Basic
import Mathlib.Order.Bounds.Basic
import Splice.Command.Run
import Splice.Proofs.Keys

/-!
# Definitions over a file

Definitions are added to the entries of a file by their own text, and a table keeps, of the keys with
one printed form, the first in the order of their texts. So a definition replaces an entry of a file
that is spelled like it, but of two spellings of one expression it is not the later one that counts.
-/
namespace Splice

namespace Entries

variable {es : Entries}

/-- Of two entries the one with the lesser key stands first. -/
theorem lt_of_split {before after : List (String × Value)} {e other : String × Value}
    (split : es.toList = before ++ e :: after) :
    (other ∈ before → other.1 < e.1) ∧ (other ∈ after → e.1 < other.1) := by
  have order := es.inOrder
  rw [split, List.pairwise_append, List.pairwise_cons] at order
  exact ⟨fun earlier => order.2.2 other earlier e (by simp), order.2.1.1 other⟩

/-- An entry is found under its key. -/
theorem get?_eq {e : String × Value} (member : e ∈ es.toList) : es.get? e.1 = some e.2 := by
  obtain ⟨before, after, split⟩ := List.append_of_mem member
  refine List.lookup_eq_some_iff.mpr ⟨before, after, split, fun other earlier => ?_⟩
  simpa using ne_of_gt ((lt_of_split split).1 earlier)

end Entries

namespace Config

/-! ## Definitions -/

/-- Definitions that can be read replace what has their key, and of several with one key the last
one counts. -/
theorem get?_define (c : Config) (ds : List String) (read : (c.define ds).2 = none) (key : String) :
    (c.define ds).1.replace.get? key =
      ((ds.filterMap parseDefinition?).reverse.lookup key).or (c.replace.get? key) := by
  fun_induction define c ds with
  | case1 c => rfl
  | case2 c arg rest k v parsed ih =>
    rw [ih read, List.filterMap_cons_some parsed, List.reverse_cons, List.lookup_append,
      Option.or_assoc, Config.insert, Entries.get?_insert]
    congr 1
    rw [Entries.lookup_cons]
    split <;> simp
  | case3 c arg rest unread => cases read

theorem lookup_definitions_eq_none {ds : List String} {key : String}
    (unnamed : ∀ d ∈ ds, ∀ v, parseDefinition? d ≠ some (key, v)) :
    (ds.filterMap parseDefinition?).reverse.lookup key = none := by
  rw [List.lookup_eq_none_iff]
  intro e member
  obtain ⟨d, listed, parsed⟩ := List.mem_filterMap.mp (List.mem_reverse.mp member)
  have other : key ≠ e.1 := by
    rintro rfl
    exact unnamed d listed e.2 parsed
  simpa using other

/-- The last definition with a key gives its value. -/
theorem get?_define_last {c : Config} {before after : List String} {arg key : String} {value : Value}
    (read : (c.define (before ++ arg :: after)).2 = none)
    (reads : parseDefinition? arg = some (key, value))
    (last : ∀ d ∈ after, ∀ v, parseDefinition? d ≠ some (key, v)) :
    (c.define (before ++ arg :: after)).1.replace.get? key = some value := by
  have later := lookup_definitions_eq_none last
  rw [get?_define c _ read, List.filterMap_append, List.filterMap_cons_some reads,
    List.reverse_append, List.reverse_cons]
  simp [List.lookup_append, later]

/-- A key that no definition has keeps its value. -/
theorem get?_define_other {c : Config} {ds : List String} {key : String}
    (read : (c.define ds).2 = none) (unnamed : ∀ d ∈ ds, ∀ v, parseDefinition? d ≠ some (key, v)) :
    (c.define ds).1.replace.get? key = c.replace.get? key := by
  rw [get?_define c ds read, lookup_definitions_eq_none unnamed, Option.none_or]

/-! ## The spelling that counts -/

/-- The key is configured and prints as the text. -/
def Spells (c : Config) (text key : String) : Prop :=
  c.replace.contains key ∧ ∃ shape, normalizeKey key = some (text, shape)

theorem entryFor_eq_some {text : String} {e : String × Value} {v : Value} {shape : Shape} :
    entryFor text e = some (v, shape) ↔ e.2 = v ∧ normalizeKey e.1 = some (text, shape) := by
  unfold entryFor
  cases normalizeKey e.1 with
  | none => simp
  | some form => grind

/-- A text is found under the first of its spellings. -/
theorem keyFor_eq_some {c : Config} {text : String} {v : Value}
    {shape : Shape} (found : c.keyFor text = some (v, shape)) :
    ∃ key, c.replace.get? key = some v ∧ normalizeKey key = some (text, shape) ∧
      IsLeast {k | c.Spells text k} key := by
  obtain ⟨before, e, after, split, here, none⟩ := List.findSome?_eq_some_iff.mp found
  obtain ⟨rfl, form⟩ := entryFor_eq_some.mp here
  have value : c.replace.get? e.1 = some e.2 := Entries.get?_eq (by simp [split])
  refine ⟨e.1, value, form, ⟨by simp [Entries.contains, value], shape, form⟩, ?_⟩
  rintro other ⟨contained, otherShape, otherForm⟩
  obtain ⟨w, listed⟩ := Option.isSome_iff_exists.mp contained
  have member := Entries.mem_of_get? listed
  rw [split, List.mem_append, List.mem_cons] at member
  rcases member with earlier | rfl | later
  · have entry : entryFor text (other, w) = some (w, otherShape) :=
      entryFor_eq_some.mpr ⟨rfl, otherForm⟩
    exact absurd (none _ earlier) (by simp [entry])
  · exact le_rfl
  · exact le_of_lt ((Entries.lt_of_split split).2 later)

theorem exists_keyFor {c : Config} {text key : String} (spelled : c.Spells text key) :
    ∃ found, c.keyFor text = some found := by
  obtain ⟨contained, shape, form⟩ := spelled
  obtain ⟨v, listed⟩ := Option.isSome_iff_exists.mp contained
  have entry : entryFor text (key, v) = some (v, shape) := entryFor_eq_some.mpr ⟨rfl, form⟩
  refine Option.isSome_iff_exists.mp (List.findSome?_isSome_iff.mpr ?_)
  exact ⟨(key, v), Entries.mem_of_get? listed, by rw [entry, Option.isSome_some]⟩

/-- What a table answers for a text that some key spells is the value of the first spelling. -/
theorem lookup_eq_first {c : Config} {text key : String} (spelled : c.Spells text key) :
    ∃ first, IsLeast {k | c.Spells text k} first ∧
      (Table.ofConfig c).lookup text = c.replace.get? first := by
  obtain ⟨⟨v, shape⟩, found⟩ := exists_keyFor spelled
  obtain ⟨first, value, -, least⟩ := keyFor_eq_some found
  exact ⟨first, least, by rw [Table.lookup_ofConfig, found, value, Option.map_some]⟩

end Config

namespace Command

/-- A file that is no configuration ends the loading; else its configuration is extended. -/
theorem loadConfig_some (w : World) (path : String) (ds : List String) :
    (loadConfig World.surroundings (some path) ds w).1 =
      match w.files.read path with
      | .error e => .error (.io (path ++ ": " ++ e.message))
      | .ok text =>
        match Config.parse text with
        | .error message => .error (.config (path ++ ": " ++ message))
        | .ok base => define base ds := by
  simp only [loadConfig, configFile, World.surroundings, bind, StateT.bind]
  cases w.files.read path with
  | error e => rfl
  | ok text =>
    simp only
    cases Config.parse text <;> rfl

/-- A configuration that is loaded is that of a file, or the empty one, with all definitions. -/
theorem loadConfig_eq_ok {w : World} {path : Option String} {ds : List String} {c : Config}
    (loads : (loadConfig World.surroundings path ds w).1 = .ok c) :
    ∃ base : Config, base.define ds = (c, none) := by
  have defined : ∀ {base : Config}, define base ds = .ok c → base.define ds = (c, none) := by
    intro base done
    unfold define at done
    split at done
    next all =>
      obtain rfl := Except.ok.inj done
      exact all
    · cases done
  cases path with
  | none => exact ⟨{}, defined loads⟩
  | some path =>
    rw [loadConfig_some] at loads
    split at loads
    · cases loads
    · split at loads
      · cases loads
      next base _ => exact ⟨base, defined loads⟩

/-- A definition that no later one spells again is in the configuration under its own key, whatever
the file and the earlier definitions say. -/
theorem get?_of_definition {base c : Config} {before after : List String} {arg key text : String}
    {value : Value} {shape : Shape} (loads : base.define (before ++ arg :: after) = (c, none))
    (reads : parseDefinition? arg = some (key, value))
    (prints : normalizeKey key = some (text, shape))
    (last : ∀ d ∈ after, ∀ k v s, parseDefinition? d = some (k, v) →
      normalizeKey k ≠ some (text, s)) : c.replace.get? key = some value := by
  have own := Config.get?_define_last (by rw [loads]) reads
    fun d listed v parsed => last d listed key v shape parsed prints
  rwa [loads] at own

/-- A definition that no later one spells again replaces every entry with its own key, and the table
answers for its expression with the value of the first spelling in the order of the keys. So the
definition wins exactly if the first spelling has its value, as it does if it is the first. -/
theorem definition_wins_iff (w : World) (path : Option String) (before after : List String)
    (arg key text : String) (value : Value) (shape : Shape) (c : Config)
    (loads : (loadConfig World.surroundings path (before ++ arg :: after) w).1 = .ok c)
    (reads : parseDefinition? arg = some (key, value))
    (prints : normalizeKey key = some (text, shape))
    (last : ∀ d ∈ after, ∀ k v s, parseDefinition? d = some (k, v) →
      normalizeKey k ≠ some (text, s)) :
    c.replace.get? key = some value ∧
    (∃ first ≤ key, IsLeast {k | c.Spells text k} first ∧
      (Table.ofConfig c).lookup text = c.replace.get? first) ∧
    ((Table.ofConfig c).lookup text = some value ↔
      ∀ first, IsLeast {k | c.Spells text k} first → c.replace.get? first = some value) ∧
    ((∀ k, c.Spells text k → key ≤ k) → (Table.ofConfig c).lookup text = some value) := by
  obtain ⟨base, defined⟩ := loadConfig_eq_ok loads
  have own := get?_of_definition defined reads prints last
  have spelled : c.Spells text key := ⟨by simp [Entries.contains, own], shape, prints⟩
  obtain ⟨first, least, answer⟩ := Config.lookup_eq_first spelled
  refine ⟨own, ⟨first, least.2 spelled, least, answer⟩, ⟨?_, ?_⟩, ?_⟩
  · intro wins other otherLeast
    rw [otherLeast.unique least, ← answer, wins]
  · intro all
    rw [answer, all first least]
  · intro least'
    have same : first = key := le_antisymm (least.2 spelled) (least' first least.1)
    rw [answer, same, own]

/-- A world with a configuration file. -/
def withFile (path text : String) : World :=
  { files := ⟨[({ names := [path] }, .file (.text text))]⟩ }

/-- The file spells the expression twice, once like the definition and once in a later spelling. -/
theorem definition_wins_iff_later_spelling :
    let w := withFile "c.json" "\x7b\"replace\":\x7b\"a.b \":\"0\",\"a.b\":\"1\"\x7d\x7d"
    let c : Config := ⟨{ toList := [("a.b", .text "2"), ("a.b ", .text "0"), ("c", .text "3")] }⟩
    (loadConfig World.surroundings (some "c.json") ["a.b=2", "c=3"] w).1 = .ok c ∧
      (Table.ofConfig c).lookup "a.b" = some (.text "2") := by
  intro w c
  have loads : (loadConfig World.surroundings (some "c.json") ["a.b=2", "c=3"] w).1 = .ok c := by
    decide +kernel
  refine ⟨loads, ?_⟩
  refine (definition_wins_iff w (some "c.json") [] ["c=3"] "a.b=2" "a.b" "a.b" (.text "2") .member c
    loads (by decide +kernel) (by decide +kernel) ?_).2.2.2 ?_
  · intro d member k v s parsed
    obtain rfl : d = "c=3" := by simpa using member
    have key : parseDefinition? "c=3" = some ("c", .text "3") := by decide +kernel
    obtain ⟨rfl, -⟩ : "c" = k ∧ Value.text "3" = v := by simpa [key] using parsed
    have other : (normalizeKey "c").map (·.1) ≠ some "a.b" := by decide +kernel
    intro same
    exact other (by rw [same]; rfl)
  · rintro k ⟨listed, -⟩
    have keys : ∀ e ∈ c.replace.toList, "a.b" ≤ e.1 := by decide +kernel
    obtain ⟨v, found⟩ := Option.isSome_iff_exists.mp listed
    exact keys (k, v) (Entries.mem_of_get? found)

/-- The file has the expression in a spelling that comes before that of the definition: the entry of
the file is used and the definition is dropped. -/
theorem definition_loses_to_earlier_spelling :
    let w := withFile "c.json" "\x7b\"replace\":\x7b\"a .b\":\"1\"\x7d\x7d"
    let c : Config := ⟨{ toList := [("a .b", .text "1"), ("a.b", .text "2")] }⟩
    (loadConfig World.surroundings (some "c.json") ["a.b=2"] w).1 = .ok c ∧
      parseDefinition? "a.b=2" = some ("a.b", .text "2") ∧
      normalizeKey "a.b" = some ("a.b", .member) ∧
      (Table.ofConfig c).lookup "a.b" = some (.text "1") ∧
      (Table.ofConfig c).dropped = ["a.b"] := by
  decide +kernel

end Command

end Splice
