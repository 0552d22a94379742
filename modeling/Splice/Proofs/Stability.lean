import Splice.Proofs.Fusion
import Splice.Proofs.Grammar.Program

/-!
# Passes over programs

Every program that can be read is well-formed, and so is every key. So what holds of passes over
well-formed trees holds of passes over all programs: a pass that puts in constants has nothing left to
do the second time, and independent passes can be run in either order or at once.
-/
namespace Splice

/-! ## Keys -/

/-- A key that is printed as a dotted name and is a name has the shape of that name. -/
theorem nameShape_of_normalizeKey {key text : String} {shape : Shape}
    (read : normalizeKey key = some (text, shape)) (dotted : Dotted text.toList)
    (name : shape = .identifier ∨ shape = .member) : shape = nameShape text.toList := by
  obtain ⟨e, expression, same⟩ := Option.map_eq_some_iff.mp read
  obtain ⟨rfl, rfl⟩ := Prod.mk.inj same
  rw [Node.render_eq, String.toList_ofList] at dotted ⊢
  exact Node.shape_eq_nameShape (parseExpression_grammatical expression).wellFormed dotted name

/-- A table whose kept keys are names and properties by their form, and are printed as dotted names,
looks at the shapes of its keys as names. -/
theorem Table.looksAtNames {c : Config}
    (dotted : ∀ text v, (ofConfig c).lookup text = some v → Dotted text.toList)
    (names : ∀ s, (ofConfig c).mayMatch s = true → s = .identifier ∨ s = .member) :
    (ofConfig c).LooksAtNames := by
  intro text v found
  have key := dotted text v found
  rw [lookup_ofConfig, Option.map_eq_some_iff] at found
  obtain ⟨⟨_, shape⟩, found, rfl⟩ := found
  have may : (ofConfig c).mayMatch shape = true := (mayMatch_ofConfig c shape).mpr ⟨text, _, found⟩
  obtain ⟨e, -, entry⟩ := List.exists_of_findSome?_eq_some found
  have read := (Config.entryFor_eq_some.mp entry).2
  rwa [← nameShape_of_normalizeKey read key (names shape may)]

/-! ## Passes -/

namespace Pass

variable {environment : Environment} {language : Language} {source : String} {program : Parsed}

/-- A pass that puts in constants for names is idempotent: run again on its result it replaces and
rejects nothing, keeps what it kept, and leaves the tree as it is. -/
theorem constant_pass_is_idempotent {c : Config} (read : parse language source = .ok program)
    (keys : ∀ text v, (Table.ofConfig c).lookup text = some v → Dotted text.toList)
    (values : ∀ text v, (Table.ofConfig c).lookup text = some v →
      (Replacement.resolve environment v).isConstant = true) :
    let p := c.pass environment language
    (p.run (p.run program.tree).1).2.replaced = 0 ∧
      (p.run (p.run program.tree).1).2.rejected = 0 ∧
      (p.run (p.run program.tree).1).2.unresolved = (p.run program.tree).2.unresolved ∧
      (p.run (p.run program.tree).1).1 = (p.run program.tree).1 := by
  intro p
  have constants : p.PutsConstants := ⟨keys, values⟩
  have again := constants.walk_walk (parse_wellFormed read)
  simp only [run_eq_walk, again, and_self]

/-- A shorthand property is replaced, and two uses of a variable that is not set are kept. -/
theorem constant_pass_is_idempotent_shorthand :
    let c : Config := ⟨{ toList := [("a", .bool true), ("p.q", .text "process.env.U")] }⟩
    let p := c.pass {} .plain
    (∀ text v, (Table.ofConfig c).lookup text = some v → Dotted text.toList) ∧
    (∀ text v, (Table.ofConfig c).lookup text = some v →
      (Replacement.resolve {} v).isConstant = true) ∧
    ∃ program, parse .plain "x = \x7b a, b: p.q, c: p.q.r \x7d;" = .ok program ∧
      (p.run program.tree).2 = ⟨1, 2, 0⟩ ∧
      (p.run (p.run program.tree).1).2.replaced = 0 ∧
      (p.run (p.run program.tree).1).2.rejected = 0 ∧
      (p.run (p.run program.tree).1).2.unresolved = (p.run program.tree).2.unresolved ∧
      (p.run (p.run program.tree).1).1 = (p.run program.tree).1 := by
  intro c p
  have entries : (Table.ofConfig c).entries.toList =
      [("a", .bool true), ("p.q", .text "process.env.U")] := by decide +kernel
  have keys : ∀ text v, (Table.ofConfig c).lookup text = some v → Dotted text.toList := by
    refine Table.forall_lookup entries
      (List.forall_mem_cons.mpr ⟨?_, List.forall_mem_singleton.mpr ?_⟩)
    · exact .root ⟨"a", by decide +kernel⟩ (by decide)
    · exact .member (.root ⟨"p", by decide +kernel⟩ (by decide)) ⟨"q", by decide +kernel⟩
  have values : ∀ text v, (Table.ofConfig c).lookup text = some v →
      (Replacement.resolve {} v).isConstant = true :=
    Table.forall_lookup entries (by decide +kernel)
  have run : (parse .plain "x = \x7b a, b: p.q, c: p.q.r \x7d;").toOption.any (fun program =>
      decide ((p.run program.tree).2 = ⟨1, 2, 0⟩)) = true := by decide +kernel
  obtain ⟨program, read, counts⟩ := exists_ok_of_any run
  exact ⟨keys, values, program, read, of_decide_eq_true counts,
    constant_pass_is_idempotent read keys values⟩

/-- Passes that put in constants for names are independent if no key of one is a key of the other or
the beginning of one. They can then be run in either order, or as the pass of both configurations,
unless the filter hides an outermost match of the latter from one of them: there neither does
anything. It hides none if the keys are names and properties by their form, and are not a number that
is printed as a name. -/
theorem independent_passes_fuse {as bs : List (String × Value)}
    (read : parse language source = .ok program)
    (firstKeys : ∀ text v, (Table.ofConfig (.ofEntries as)).lookup text = some v → Dotted text.toList)
    (secondKeys : ∀ text v, (Table.ofConfig (.ofEntries bs)).lookup text = some v → Dotted text.toList)
    (apart : ∀ a v b w, (Table.ofConfig (.ofEntries as)).lookup a = some v →
      (Table.ofConfig (.ofEntries bs)).lookup b = some w →
      ¬ Opens a.toList b.toList ∧ ¬ Opens b.toList a.toList)
    (firstValues : ∀ text v, (Table.ofConfig (.ofEntries as)).lookup text = some v →
      (Replacement.resolve environment v).isConstant = true)
    (secondValues : ∀ text v, (Table.ofConfig (.ofEntries bs)).lookup text = some v →
      (Replacement.resolve environment v).isConstant = true) :
    let p := (Config.ofEntries as).pass environment language
    let q := (Config.ofEntries bs).pass environment language
    let u := (Config.ofEntries (as ++ bs)).pass environment language
    ((∀ i ∈ u.outermost program.tree, ∀ e, program.tree.at? i = some e →
        p.hides e = false ∧ q.hides e = false) → p.Fuse q u program.tree) ∧
      (∀ e : Node, u.isMatch e → (p.hides e ∨ q.hides e) →
        p.outcomeAt e = .noMatch ∧ q.outcomeAt e = .noMatch ∧ u.outcomeAt e ≠ .noMatch) ∧
      ((∀ s, p.table.mayMatch s ∨ q.table.mayMatch s → s = .identifier ∨ s = .member) →
        p.Fuse q u program.tree) := by
  intro p q u
  have independent : p.Independent q :=
    { first := ⟨firstKeys, firstValues⟩, second := ⟨secondKeys, secondValues⟩, apart }
  have joins : u.Joins p q := independent.joins
  have wellFormed := parse_wellFormed read
  refine ⟨fun seen => joins.fuse independent wellFormed fun i hit e found => ?_,
    fun e hit hidden => ?_, fun names => joins.fuse independent wellFormed fun i hit e found => ?_⟩
  · exact seen i (by rwa [outermost_eq, List.mem_toFinset]) e found
  · obtain ⟨first, second⟩ := independent.missed_of_hidden hidden
    exact ⟨first, second, (isMatch_iff_outcomeAt u).mp hit⟩
  · have matched := ((u.mem_hits program.tree i).mp hit).1
    rw [matchesAt, found, Option.any_some, isMatch_iff_outcomeAt] at matched
    obtain ⟨value, may, -⟩ := found_of_outcomeAt matched
    rw [joins.mayMatch, Bool.or_eq_true] at may
    have part := (parse_grammatical read).at? found
    exact ⟨not_hides_of_names firstKeys (Table.looksAtNames firstKeys fun s may => names s (.inl may))
        part.wellFormed (names _ may),
      not_hides_of_names secondKeys (Table.looksAtNames secondKeys fun s may => names s (.inr may))
        part.wellFormed (names _ may)⟩

/-- A shorthand property of the first pass beside a member access of the second, which is kept. -/
theorem independent_passes_fuse_shorthand :
    let as : List (String × Value) := [("a", .bool true)]
    let bs : List (String × Value) := [("p.q", .text "process.env.U")]
    let p := (Config.ofEntries as).pass {} .plain
    let q := (Config.ofEntries bs).pass {} .plain
    let u := (Config.ofEntries (as ++ bs)).pass {} .plain
    (∀ text v, (Table.ofConfig (.ofEntries as)).lookup text = some v → Dotted text.toList) ∧
    (∀ text v, (Table.ofConfig (.ofEntries bs)).lookup text = some v → Dotted text.toList) ∧
    (∀ a v b w, (Table.ofConfig (.ofEntries as)).lookup a = some v →
      (Table.ofConfig (.ofEntries bs)).lookup b = some w →
      ¬ Opens a.toList b.toList ∧ ¬ Opens b.toList a.toList) ∧
    (∀ text v, (Table.ofConfig (.ofEntries as)).lookup text = some v →
      (Replacement.resolve {} v).isConstant = true) ∧
    (∀ text v, (Table.ofConfig (.ofEntries bs)).lookup text = some v →
      (Replacement.resolve {} v).isConstant = true) ∧
    ∃ program, parse .plain "x = \x7b a, b: p.q, c: p.q.r \x7d;" = .ok program ∧
      (u.run program.tree).2 = ⟨1, 2, 0⟩ ∧ p.Fuse q u program.tree := by
  intro as bs p q u
  have entries : (Table.ofConfig (.ofEntries as)).entries.toList = [("a", .bool true)] ∧
      (Table.ofConfig (.ofEntries bs)).entries.toList = [("p.q", .text "process.env.U")] := by
    decide +kernel
  have firstKeys : ∀ text v, (Table.ofConfig (.ofEntries as)).lookup text = some v →
      Dotted text.toList := by
    refine Table.forall_lookup entries.1 (List.forall_mem_singleton.mpr ?_)
    exact .root ⟨"a", by decide +kernel⟩ (by decide)
  have secondKeys : ∀ text v, (Table.ofConfig (.ofEntries bs)).lookup text = some v →
      Dotted text.toList := by
    refine Table.forall_lookup entries.2 (List.forall_mem_singleton.mpr ?_)
    exact .member (.root ⟨"p", by decide +kernel⟩ (by decide)) ⟨"q", by decide +kernel⟩
  have apart : ∀ a v b w, (Table.ofConfig (.ofEntries as)).lookup a = some v →
      (Table.ofConfig (.ofEntries bs)).lookup b = some w →
      ¬ Opens a.toList b.toList ∧ ¬ Opens b.toList a.toList := by
    intro a v b w here there
    obtain rfl : a = "a" :=
      Table.forall_lookup (P := fun text _ => text = "a") entries.1 (by simp) a v here
    obtain rfl : b = "p.q" :=
      Table.forall_lookup (P := fun text _ => text = "p.q") entries.2 (by simp) b w there
    simp [Opens]
  have firstValues : ∀ text v, (Table.ofConfig (.ofEntries as)).lookup text = some v →
      (Replacement.resolve {} v).isConstant = true :=
    Table.forall_lookup entries.1 (by decide +kernel)
  have secondValues : ∀ text v, (Table.ofConfig (.ofEntries bs)).lookup text = some v →
      (Replacement.resolve {} v).isConstant = true :=
    Table.forall_lookup entries.2 (by decide +kernel)
  have names : ∀ s, p.table.mayMatch s ∨ q.table.mayMatch s → s = .identifier ∨ s = .member := by
    intro s
    cases s <;> decide +kernel
  have run : (parse .plain "x = \x7b a, b: p.q, c: p.q.r \x7d;").toOption.any (fun program =>
      decide ((u.run program.tree).2 = ⟨1, 2, 0⟩)) = true := by decide +kernel
  obtain ⟨program, read, counts⟩ := exists_ok_of_any run
  exact ⟨firstKeys, secondKeys, apart, firstValues, secondValues, program, read,
    of_decide_eq_true counts,
    (independent_passes_fuse read firstKeys secondKeys apart firstValues secondValues).2.2 names⟩

/-- A number that is too large is printed as the name of infinity. As a key it finds no such name, but
it does if another key is a name: two passes then do less than the pass of both. -/
theorem independent_passes_part_at_infinity :
    let as : List (String × Value) := [("1e999", .bool true)]
    let bs : List (String × Value) := [("a", .bool true)]
    let p := (Config.ofEntries as).pass {} .plain
    let q := (Config.ofEntries bs).pass {} .plain
    let u := (Config.ofEntries (as ++ bs)).pass {} .plain
    (∀ text v, p.table.lookup text = some v → Dotted text.toList) ∧
    (∀ text v, q.table.lookup text = some v → Dotted text.toList) ∧
    (∀ text v, (u.table.lookup text = some v) →
      (Replacement.resolve {} v).isConstant = true) ∧
    (∀ a v b w, p.table.lookup a = some v → q.table.lookup b = some w →
      ¬ Opens a.toList b.toList ∧ ¬ Opens b.toList a.toList) ∧
    ∃ program, parse .plain "x = Infinity; y = a;" = .ok program ∧
      (p.run program.tree).2 + (q.run (p.run program.tree).1).2 = { replaced := 1 } ∧
      (u.run program.tree).2 = { replaced := 2 } ∧ ¬ p.Fuse q u program.tree := by
  intro as bs p q u
  have entries : p.table.entries.toList = [("Infinity", .bool true)] ∧
      q.table.entries.toList = [("a", .bool true)] ∧
      u.table.entries.toList = [("Infinity", .bool true), ("a", .bool true)] := by decide +kernel
  have run : (parse .plain "x = Infinity; y = a;").toOption.any (fun program =>
      decide ((p.run program.tree).2 + (q.run (p.run program.tree).1).2 = { replaced := 1 } ∧
        (u.run program.tree).2 = { replaced := 2 })) = true := by decide +kernel
  obtain ⟨program, read, counts⟩ := exists_ok_of_any run
  obtain ⟨apartly, jointly⟩ := of_decide_eq_true counts
  refine ⟨?_, ?_, ?_, ?_, program, read, apartly, jointly, fun fuse => ?_⟩
  · refine Table.forall_lookup entries.1 (List.forall_mem_singleton.mpr ?_)
    exact .root ⟨"Infinity", by decide +kernel⟩ (by decide)
  · refine Table.forall_lookup entries.2.1 (List.forall_mem_singleton.mpr ?_)
    exact .root ⟨"a", by decide +kernel⟩ (by decide)
  · exact Table.forall_lookup entries.2.2 (by decide +kernel)
  · intro a v b w here there
    obtain rfl : a = "Infinity" :=
      Table.forall_lookup (P := fun text _ => text = "Infinity") entries.1 (by simp) a v here
    obtain rfl : b = "a" :=
      Table.forall_lookup (P := fun text _ => text = "a") entries.2.1 (by simp) b w there
    simp [Opens]
  · have same := fuse.stats
    rw [apartly, jointly] at same
    cases same

end Pass

end Splice
