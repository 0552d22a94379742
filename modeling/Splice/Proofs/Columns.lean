import Mathlib.Data.List.Forall2
import Splice.Define.Report

/-!
# The columns of a report

The width of the first column is counted in bytes, and the column is filled up by characters. No text
has fewer bytes than characters and no kind is longer than its column, so every row is filled up to
the same two positions, whatever characters its key consists of. The positions are counted from the
beginning of the row: a key may have line ends in it, so a row need not be one line.
-/
namespace Splice

namespace Report

/-! ## What a row is -/

/-- So many blanks. -/
def gap (n : Nat) : String := String.ofList (List.replicate n ' ')

/-- The width of the first column: the bytes of the longest key, and nothing if there is no key. -/
structure IsKeyWidth (entries : List ReportEntry) (width : Nat) : Prop where
  covers : ∀ e ∈ entries, e.key.utf8ByteSize ≤ width
  attained : entries ≠ [] → ∃ e ∈ entries, e.key.utf8ByteSize = width
  empty : entries = [] → width = 0

/-- The row of an entry: the kind stands `width + 2` characters and the resolved text `width + 14`
characters after its beginning, with nothing but two or more blanks before either. -/
def InColumns (width : Nat) (e : ReportEntry) (row : String) : Prop :=
  ∃ m n, 2 ≤ m ∧ 2 ≤ n ∧
    row = e.key ++ gap m ++ e.kind ++ gap n ++
      e.resolved.getD "(environment variable not set)" ++ "\n" ∧
    (e.key ++ gap m).length = width + 2 ∧
    (e.key ++ gap m ++ e.kind ++ gap n).length = width + 14

/-- The entry of a key tells the key, its value as it was configured, and what the value stands for. -/
structure Tells (env : Environment) (given : String × Value) (e : ReportEntry) : Prop where
  key : e.key = given.1
  value : e.value = given.2
  resolved : ∀ r, Replacement.resolve env given.2 = .resolved r →
    e.kind = r.kind ∧ e.resolved = some r.shown
  unset : ∀ name, Replacement.resolve env given.2 = .unset name →
    e.kind = "unresolved" ∧ e.resolved = none

/-! ## Filling up -/

@[simp] theorem length_gap (n : Nat) : (gap n).length = n := by
  rw [gap, String.length_ofList, List.length_replicate]

theorem gap_append (m n : Nat) : gap m ++ gap n = gap (m + n) := by
  rw [gap, gap, gap, ← String.ofList_append, List.replicate_append_replicate]

/-- A column and the two blanks after it. -/
theorem padded_append (width : Nat) (s : String) :
    padded width s ++ "  " = s ++ gap (width - s.length + 2) := by
  have filled : padded width s = s ++ gap (width - s.length) := by
    rw [padded, String.ofList_append, String.ofList_toList, gap]
  have two : "  " = gap 2 := rfl
  rw [filled, two, String.append_assoc, gap_append]

/-! ## What fits -/

theorem length_le_utf8ByteSize (s : String) : s.length ≤ s.utf8ByteSize := by
  induction s using String.push_induction with
  | empty => exact Nat.le_refl _
  | push s c ih =>
    have size : 0 < c.utf8Size := c.utf8Size_pos
    rw [String.length_push, String.utf8ByteSize_push]
    omega

theorem kind_mem (env : Environment) (key : String) (v : Value) :
    (entryOf env key v).kind ∈ ["unresolved", "boolean", "number", "string", "expression"] := by
  unfold entryOf
  split
  next r _ => cases r <;> simp [Replacement.kind]
  next => simp

theorem length_kind_le (env : Environment) (key : String) (v : Value) :
    (entryOf env key v).kind.length ≤ 10 := by
  have kinds : ∀ kind ∈ ["unresolved", "boolean", "number", "string", "expression"],
      kind.length ≤ 10 := by decide
  exact kinds _ (kind_mem env key v)

theorem isKeyWidth (r : Report) : IsKeyWidth r.entries r.keyWidth := by
  -- The maximum is taken from zero on, as if there were a key of no bytes.
  have widest : (0 :: r.entries.map fun e => e.key.utf8ByteSize).max? = some r.keyWidth :=
    List.max?_cons'
  obtain ⟨listed, largest⟩ := List.max?_eq_some_iff.mp widest
  have covers : ∀ e ∈ r.entries, e.key.utf8ByteSize ≤ r.keyWidth := fun e listed =>
    largest _ (List.mem_cons_of_mem _ (List.mem_map_of_mem listed))
  refine ⟨covers, fun someKey => ?_, fun noKey => ?_⟩
  · rcases List.mem_cons.mp listed with zero | reached
    · obtain ⟨e, listed⟩ := List.exists_mem_of_ne_nil _ someKey
      have least := covers e listed
      exact ⟨e, listed, by omega⟩
    · exact List.mem_map.mp reached
  · rw [keyWidth, noKey]
    rfl

/-! ## All rows -/

theorem tells_entryOf (env : Environment) (key : String) (v : Value) :
    Tells env (key, v) (entryOf env key v) := by
  unfold entryOf
  cases found : Replacement.resolve env v with
  | resolved r =>
    refine ⟨rfl, rfl, fun r' same => ?_, fun name same => ?_⟩
    · obtain rfl := Resolution.resolved.inj (found.symm.trans same)
      exact ⟨rfl, rfl⟩
    · cases found.symm.trans same
  | unset name =>
    refine ⟨rfl, rfl, fun r same => ?_, fun _ _ => ⟨rfl, rfl⟩⟩
    cases found.symm.trans same

theorem inColumns_row {width : Nat} {e : ReportEntry} (key : e.key.length ≤ width)
    (kind : e.kind.length ≤ 10) : InColumns width e (row width e) := by
  refine ⟨width - e.key.length + 2, 10 - e.kind.length + 2, by omega, by omega, ?_, ?_, ?_⟩
  · rw [row, padded_append, @String.append_assoc _ (padded 10 e.kind), padded_append,
      ← String.append_assoc]
  · rw [String.length_append, length_gap]
    omega
  · simp only [String.length_append, length_gap]
    omega

/-- The report on a table has one entry for each key, in the order of the table, and names the keys
that the table dropped. Its text has one row for each entry, in their order, and all rows have the same
columns; after them there is one row for each dropped key. -/
theorem text_in_columns (t : Table) (env : Environment) :
    let r := ofTable t env
    List.Forall₂ (Tells env) t.entries.toList r.entries ∧ r.dropped = t.dropped ∧
    IsKeyWidth r.entries r.keyWidth ∧
    ∃ rows, List.Forall₂ (InColumns r.keyWidth) r.entries rows ∧
      r.text = String.join rows ++
        String.join (r.dropped.map fun key => "ignored key: " ++ key ++ "\n") := by
  intro r
  have width : IsKeyWidth r.entries r.keyWidth := isKeyWidth r
  refine ⟨?_, rfl, width, r.entries.map (row r.keyWidth), ?_, ?_⟩
  · exact List.forall₂_map_right_iff.mpr
      (List.forall₂_same.mpr fun given _ => tells_entryOf env given.1 given.2)
  · refine List.forall₂_map_right_iff.mpr (List.forall₂_same.mpr fun e listed => ?_)
    have bytes := Nat.le_trans (length_le_utf8ByteSize e.key) (width.covers e listed)
    obtain ⟨⟨key, v⟩, -, rfl⟩ := List.mem_map.mp listed
    exact inColumns_row bytes (length_kind_le env key v)
  · rw [text, String.join_append]
    rfl

/-- A key of one character and four bytes makes the column four characters wide. -/
example : text ⟨[⟨"a", .bool true, "boolean", some "true"⟩, ⟨"𐌰", .bool true, "unresolved", none⟩],
    ["a b"]⟩ =
    "a     boolean     true\n" ++ "𐌰     unresolved  (environment variable not set)\n" ++
      "ignored key: a b\n" := by
  decide

end Report

end Splice
