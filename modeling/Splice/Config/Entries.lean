import Splice.Config.Value

/-!
# Ordered entries

Values by key, in the order of the keys, so that every key is there once. Keys are compared by their
characters, which is also the order of their UTF-8 bytes.
-/
namespace Splice

theorem Entries.inOrder_nil : ([] : List (String × Value)).Pairwise fun a b => a.1 < b.1 := .nil

/-- Entries in increasing order of their keys. -/
@[ext]
structure Entries where
  toList : List (String × Value) := []
  inOrder : toList.Pairwise (fun a b => a.1 < b.1) := by first | exact Entries.inOrder_nil | decide
deriving DecidableEq, Repr

namespace Entries

instance : Inhabited Entries := ⟨{}⟩

/-- Puts an entry into its place, replacing the one with the same key. -/
def insertInto (key : String) (v : Value) : List (String × Value) → List (String × Value)
  | [] => [(key, v)]
  | (k, w) :: rest =>
    if key = k then (key, v) :: rest
    else if key < k then (key, v) :: (k, w) :: rest
    else (k, w) :: insertInto key v rest

theorem mem_insertInto {key : String} {v : Value} {es : List (String × Value)}
    {e : String × Value} (member : e ∈ insertInto key v es) : e = (key, v) ∨ e ∈ es := by
  fun_induction insertInto key v es with
  | case1 => simpa using member
  | case2 w rest => simpa using (List.mem_cons.mp member).imp_right (List.mem_cons_of_mem (key, w))
  | case3 k w rest different less => simpa using member
  | case4 k w rest different notLess ih =>
    rcases List.mem_cons.mp member with rfl | later
    · simp
    · exact (ih later).imp_right (List.mem_cons_of_mem (k, w))

theorem pairwise_insertInto (key : String) (v : Value) {es : List (String × Value)}
    (order : es.Pairwise fun a b => a.1 < b.1) :
    (insertInto key v es).Pairwise fun a b => a.1 < b.1 := by
  fun_induction insertInto key v es with
  | case1 => simp
  | case2 w rest =>
    obtain ⟨first, rest⟩ := List.pairwise_cons.mp order
    exact List.pairwise_cons.mpr ⟨first, rest⟩
  | case3 k w rest different less =>
    refine List.pairwise_cons.mpr ⟨?_, order⟩
    intro e member
    rcases List.mem_cons.mp member with rfl | later
    · exact less
    · exact String.lt_trans less ((List.pairwise_cons.mp order).1 e later)
  | case4 k w rest different notLess ih =>
    obtain ⟨first, rest⟩ := List.pairwise_cons.mp order
    refine List.pairwise_cons.mpr ⟨?_, ih rest⟩
    intro e member
    rcases mem_insertInto member with rfl | old
    · exact Std.lt_of_le_of_ne (String.not_lt.mp notLess) (Ne.symm different)
    · exact first e old

def insert (es : Entries) (key : String) (v : Value) : Entries :=
  ⟨insertInto key v es.toList, pairwise_insertInto key v es.inOrder⟩

@[simp] theorem toList_insert (es : Entries) (key : String) (v : Value) :
    (es.insert key v).toList = insertInto key v es.toList := rfl

def get? (es : Entries) (key : String) : Option Value := es.toList.lookup key

def contains (es : Entries) (key : String) : Bool := (es.get? key).isSome

def size (es : Entries) : Nat := es.toList.length

def isEmpty (es : Entries) : Bool := es.toList.isEmpty

end Entries

end Splice
