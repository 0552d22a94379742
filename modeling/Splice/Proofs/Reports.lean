import Mathlib.Tactic.SplitIfs
import Splice.Define.Report
import Splice.Proofs.Overrides
import Splice.Proofs.Substitution

/-!
# Reports and passes

A report is made from a table and an environment, without a program. It has one entry for each key
of the table, and this entry tells what a pass will do wherever it finds the key: the kind alone where
a value is a constant or a variable is not set, the kind and the resolved text where the value is an
expression, which has to be read in the language of the program.
-/
namespace Splice

/-! ## The order of bytes -/

namespace Json

theorem ofNat_cons_lt_iff {m n : Nat} (small : m < 256) (small' : n < 256) {x y : List UInt8} :
    UInt8.ofNat m :: x < UInt8.ofNat n :: y ↔ m < n ∨ m = n ∧ x < y := by
  have first : (UInt8.ofNat m).toNat = m := UInt8.toNat_ofNat_of_lt small
  have second : (UInt8.ofNat n).toNat = n := UInt8.toNat_ofNat_of_lt small'
  rw [List.cons_lt_cons_iff, UInt8.lt_iff_toNat_lt, ← UInt8.toNat_inj, first, second]

/-- Codes are compared by all but their last six bits first. -/
theorem lt_iff_groups {m n : Nat} : m < n ↔ m / 64 < n / 64 ∨ m / 64 = n / 64 ∧ m % 64 < n % 64 := by
  omega

/-- Of two characters, the smaller one has the smaller bytes, whatever follows. -/
theorem utf8EncodeChar_lt {c d : Char} (less : c < d) (x y : List UInt8) :
    String.utf8EncodeChar c ++ x < String.utf8EncodeChar d ++ y := by
  have codes : c.val.toNat < d.val.toNat := UInt32.lt_iff_toNat_lt.mp less
  have range : d.val.toNat < 0x110000 := d.valid.elim (fun low => by omega) And.right
  unfold String.utf8EncodeChar
  dsimp only
  generalize c.val.toNat = m at *
  generalize d.val.toNat = n at *
  split_ifs
  all_goals simp (disch := omega) only [List.cons_append, List.nil_append, ofNat_cons_lt_iff]
  -- of two codes with four groups each, the first groups that differ decide
  on_goal 16 =>
    have groups := codes
    rw [lt_iff_groups, @lt_iff_groups (m / 64), @lt_iff_groups (m / 64 / 64)] at groups
    simp only [Nat.div_div_eq_div_mul] at groups
    clear codes
    rcases groups with ((high | ⟨same, next⟩) | ⟨same, next⟩) | ⟨same, last⟩ <;> omega
  all_goals omega

/-- The order of texts is the order of their bytes. -/
theorem utf8_lt {a b : List Char} (less : a < b) : utf8 a < utf8 b := by
  induction less with
  | @nil c cs =>
    obtain ⟨d, ds, bytes⟩ := List.exists_cons_of_ne_nil (@String.utf8EncodeChar_ne_nil c)
    rw [utf8, utf8, List.flatMap_cons, bytes]
    exact List.nil_lt_cons _ _
  | rel less => exact utf8EncodeChar_lt less _ _
  | @cons c cs ds rest ih => exact List.append_left_lt ih

end Json

/-! ## One entry for each key -/

namespace Report

variable {t : Table} {env : Environment}

@[simp] theorem entryOf_key (env : Environment) (key : String) (v : Value) :
    (entryOf env key v).key = key := by
  unfold entryOf
  split <;> rfl

theorem mem_ofTable {e : ReportEntry} :
    e ∈ (ofTable t env).entries ↔ ∃ key v, (key, v) ∈ t.entries.toList ∧ entryOf env key v = e := by
  simp [ofTable]

/-- A key of the table has the entry for its value, and no other one. -/
theorem entry_iff {key : String} {e : ReportEntry} :
    e ∈ (ofTable t env).entries ∧ e.key = key ↔
      ∃ v, t.lookup key = some v ∧ e = entryOf env key v := by
  rw [mem_ofTable]
  constructor
  · rintro ⟨⟨key, v, listed, rfl⟩, rfl⟩
    rw [entryOf_key]
    exact ⟨v, Entries.get?_eq listed, rfl⟩
  · rintro ⟨v, found, rfl⟩
    exact ⟨⟨key, v, Entries.mem_of_get? found, rfl⟩, entryOf_key env key v⟩

theorem pairwise_entries :
    (ofTable t env).entries.Pairwise fun a b => Json.utf8 a.key.toList < Json.utf8 b.key.toList := by
  rw [ofTable, List.pairwise_map]
  refine t.entries.inOrder.imp fun less => ?_
  rw [entryOf_key, entryOf_key]
  exact Json.utf8_lt (String.lt_iff_toList_lt.mp less)

end Report

/-! ## What an entry says -/

namespace Pass

variable {p : Pass} {program : Node} {q : Position} {n : Node} {v : Value}

/-- What becomes of a match, in the words of the entry for its key. -/
structure Foretold (p : Pass) (program : Node) (q : Position) (e : ReportEntry) : Prop where
  kind : e.kind ∈ ["unresolved", "boolean", "number", "string", "expression"]
  unresolved : p.isUnset program q ↔ e.kind = "unresolved"
  constant : e.kind = "boolean" ∨ e.kind = "number" ∨ e.kind = "string" →
    (p.replacementAt program q).isSome
  expression : e.kind = "expression" → ∃ text, e.resolved = some text ∧
    ((p.replacementAt program q).isSome ↔ (parseExpression p.language text).isSome) ∧
    (p.isUnreadable program q ↔ parseExpression p.language text = none)

theorem foretold (here : program.at? q = some n) (found : p.table.lookup n.render = some v) :
    p.Foretold program q (Report.entryOf p.environment n.render v) := by
  have resolution : p.resolutionAt program q = some (Replacement.resolve p.environment v) := by
    simp [resolutionAt, here, found]
  unfold Report.entryOf
  cases resolved : Replacement.resolve p.environment v with
  | unset name =>
    rw [resolved] at resolution
    refine ⟨by simp, ?_, by simp, by simp⟩
    simp [isUnset, resolution]
  | resolved r =>
    rw [resolved] at resolution
    have built : p.replacementAt program q = r.build p.language n.span := by
      simp [replacementAt, here, resolution]
    cases r with
    | expression text =>
      refine ⟨by simp [Replacement.kind], by simp [isUnset, resolution, Replacement.kind],
        by simp [Replacement.kind], fun _ => ⟨text, rfl, ?_, ?_⟩⟩
      · simp [built, Replacement.build]
      · simp [isUnreadable, resolution, built, Replacement.build]
    | _ =>
      refine ⟨by simp [Replacement.kind], by simp [isUnset, resolution, Replacement.kind],
        fun _ => ?_, by simp [Replacement.kind]⟩
      simp [built, Replacement.build]

/-- An outermost match is an expression whose text is a key. -/
theorem exists_of_outermost (outermost : q ∈ p.outermost program) :
    ∃ n v, program.at? q = some n ∧ p.table.lookup n.render = some v := by
  rw [outermost_eq, List.mem_toFinset, mem_hits] at outermost
  have hit := outermost.1
  cases here : program.at? q with
  | none => simp [matchesAt, here] at hit
  | some n =>
    simp only [matchesAt, here, Option.any_some, isMatch] at hit
    split at hit
    next =>
      obtain ⟨v, found⟩ := Option.isSome_iff_exists.mp (Bool.and_eq_true_iff.mp hit).2
      exact ⟨n, v, rfl, found⟩
    · cases hit

/-- The report on a table has exactly one entry for each key, in the order of the bytes of the keys,
and the entry tells what a pass over a program of any language does at the outermost matches with this
text. The counters of the pass are the numbers of outermost matches with each of the three fates. -/
theorem report_foretells_pass (c : Config) (env : Environment) (language : Language)
    (program : Node) :
    let t := Table.ofConfig c
    let report := Report.ofTable t env
    let p : Pass := ⟨t, env, language⟩
    (report.entries.Pairwise fun a b => Json.utf8 a.key.toList < Json.utf8 b.key.toList) ∧
    (∀ e ∈ report.entries, (t.lookup e.key).isSome) ∧
    (∀ key, (t.lookup key).isSome → ∃! e, e ∈ report.entries ∧ e.key = key) ∧
    (∀ q ∈ p.outermost program, ∃ n, program.at? q = some n ∧
      ∃ e ∈ report.entries, e.key = n.render ∧ p.Foretold program q e) ∧
    (p.run program).2.unresolved = ((p.outermost program).filter fun q => p.isUnset program q).card ∧
    (p.run program).2.replaced =
      ((p.outermost program).filter fun q => (p.replacementAt program q).isSome).card ∧
    (p.run program).2.rejected =
      ((p.outermost program).filter fun q => p.isUnreadable program q).card := by
  intro t report p
  have counters : (p.run program).2 = p.tally program (p.hits program) := by
    rw [run_eq_walk, walk_stats]
  refine ⟨Report.pairwise_entries, ?_, ?_, ?_, ?_, ?_, ?_⟩
  · intro e listed
    obtain ⟨v, found, -⟩ := (Report.entry_iff).mp ⟨listed, rfl⟩
    exact Option.isSome_of_mem found
  · intro key known
    obtain ⟨v, found⟩ := Option.isSome_iff_exists.mp known
    refine ⟨Report.entryOf env key v, (Report.entry_iff).mpr ⟨v, found, rfl⟩, ?_⟩
    intro e listed
    obtain ⟨w, found', rfl⟩ := (Report.entry_iff).mp listed
    rw [Option.some.inj (found.symm.trans found')]
  · intro q outermost
    obtain ⟨n, v, here, found⟩ := exists_of_outermost outermost
    obtain ⟨listed, key⟩ := (Report.entry_iff).mpr ⟨v, found, rfl⟩
    exact ⟨n, here, Report.entryOf env n.render v, listed, key, foretold here found⟩
  · rw [counters, card_outermost]
    rfl
  · rw [counters, card_outermost]
    rfl
  · rw [counters, card_outermost]
    rfl

end Pass

end Splice
