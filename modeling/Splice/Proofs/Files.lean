import Splice.Files.Basic
import Splice.Proofs.Keys

/-!
# Reading what was written

Writing a file makes directories and puts the file in its place; nothing else changes. Directories
stay, so a path that leads somewhere leads there ever after, and a file is read as it was written
until something is written to its own place.
-/
namespace Splice

namespace Files

variable {fs fs' : Files} {l : Location}

/-! ## Entries -/

theorem get?_insert (named : l.names ≠ []) (e : FileEntry) (m : Location) :
    (fs.insert l e).get? m = if m = l then some e else fs.get? m := by
  unfold get? insert
  by_cases here : m = l
  · simp [here, named]
  · have other : (m == l) = false := by simpa using here
    rw [List.lookup_cons, other, lookup_filter_ne here, if_neg here]

/-- A place without an entry of its own, or with a file, has a name. -/
theorem names_ne_nil (other : fs.get? l ≠ some .directory) : l.names ≠ [] := by
  intro none
  exact other (by simp [get?, none])

/-! ## What stays -/

/-- Nothing changes but that directories are made where nothing was. -/
def AddsDirectories (fs fs' : Files) : Prop :=
  ∀ l, fs'.get? l = fs.get? l ∨ fs.get? l = none ∧ fs'.get? l = some .directory

/-- Directories stay. -/
def KeepsDirectories (fs fs' : Files) : Prop :=
  ∀ l, fs.get? l = some .directory → fs'.get? l = some .directory

namespace AddsDirectories

theorem refl (fs : Files) : fs.AddsDirectories fs := fun _ => Or.inl rfl

theorem trans {fs'' : Files} (first : fs.AddsDirectories fs') (second : fs'.AddsDirectories fs'') :
    fs.AddsDirectories fs'' := by
  intro l
  rcases second l with same | ⟨absent, made⟩
  · rw [same]
    exact first l
  · rcases first l with same | ⟨-, made'⟩
    · exact Or.inr ⟨same ▸ absent, made⟩
    · rw [absent] at made'
      cases made'

theorem keeps (adds : fs.AddsDirectories fs') : fs.KeepsDirectories fs' := by
  intro l directory
  rcases adds l with same | ⟨absent, -⟩
  · rw [same, directory]
  · rw [directory] at absent
    cases absent

theorem file (adds : fs.AddsDirectories fs') {c : Content} (there : fs.get? l = some (.file c)) :
    fs'.get? l = some (.file c) := by
  rcases adds l with same | ⟨absent, -⟩
  · rw [same, there]
  · rw [there] at absent
    cases absent

end AddsDirectories

theorem KeepsDirectories.trans {fs'' : Files} (first : fs.KeepsDirectories fs')
    (second : fs'.KeepsDirectories fs'') : fs.KeepsDirectories fs'' :=
  fun l directory => second l (first l directory)

/-- A file takes no directory's place. -/
theorem keepsDirectories_insert (other : fs.get? l ≠ some .directory) (e : FileEntry) :
    fs.KeepsDirectories (fs.insert l e) := by
  intro m directory
  have different : m ≠ l := by
    rintro rfl
    exact other directory
  rw [get?_insert (names_ne_nil other), if_neg different, directory]

/-- Where paths lead depends on directories only. -/
theorem KeepsDirectories.foldlM_step (keeps : fs.KeepsDirectories fs') {names : List String}
    {m : Location} (leads : names.foldlM fs.step l = .ok m) :
    names.foldlM fs'.step l = .ok m := by
  induction names generalizing l with
  | nil => exact leads
  | cons name names ih =>
    rw [List.foldlM_cons] at leads ⊢
    unfold step at leads ⊢
    cases here : fs.get? l with
    | none =>
      rw [here] at leads
      cases leads
    | some e =>
      cases e with
      | file c =>
        rw [here] at leads
        cases leads
      | directory =>
        rw [here] at leads
        rw [keeps l here]
        exact ih leads

theorem KeepsDirectories.locate (keeps : fs.KeepsDirectories fs') {path : String} {m : Location}
    (leads : fs.locate path = .ok m) : fs'.locate path = .ok m := by
  unfold Files.locate at leads ⊢
  split at leads
  · cases leads
  next there =>
    rw [if_neg there]
    exact keeps.foldlM_step leads

/-! ## Making directories -/

theorem makeDirectories_adds (fs : Files) (l : Location) (names : List String) :
    fs.AddsDirectories (fs.makeDirectories l names).1 := by
  fun_induction makeDirectories fs l names with
  | case1 fs l => exact .refl fs
  | case2 fs l rest ih => exact ih
  | case3 fs l name rest _ _ ih => exact ih
  | case4 fs l name rest _ c _ => exact .refl fs
  | case5 fs l name rest _ absent ih =>
    refine .trans (fun m => ?_) ih
    rw [get?_insert (List.cons_ne_nil name l.names)]
    split
    next here => exact Or.inr ⟨here ▸ absent, rfl⟩
    · exact Or.inl rfl

/-! ## Writing -/

/-- A file is put where the path leads to, or nothing happens. -/
theorem put_cases (fs : Files) (path : String) (c : Content) :
    (∃ e, fs.put path c = (fs, .error e)) ∨
      ∃ l, fs.locate path = .ok l ∧ fs.get? l ≠ some .directory ∧
        fs.put path c = (fs.insert l (.file c), .ok ()) := by
  unfold put
  split
  · exact Or.inl ⟨_, rfl⟩
  · split
    next e _ => exact Or.inl ⟨e, rfl⟩
    next l leads =>
      split
      · exact Or.inl ⟨_, rfl⟩
      next other => exact Or.inr ⟨l, leads, other, rfl⟩

/-- A failed write at most makes directories; any other one also puts the text where the path leads
to. -/
theorem write_cases (fs : Files) (path text : String) :
    (∃ fs₁ e, fs.AddsDirectories fs₁ ∧ fs.write path text = (fs₁, .error e)) ∨
      ∃ fs₁ l, fs.AddsDirectories fs₁ ∧ fs₁.locate path = .ok l ∧
        fs₁.get? l ≠ some .directory ∧
        fs.write path text = (fs₁.insert l (.file (.text text)), .ok ()) := by
  have adds := makeDirectories_adds fs (.origin path) (Path.parentNames path.toList)
  unfold write
  split
  next fs₁ e made =>
    rw [made] at adds
    exact Or.inl ⟨fs₁, e, adds, rfl⟩
  next fs₁ made =>
    rw [made] at adds
    rcases fs₁.put_cases path (.text text) with ⟨e, failed⟩ | ⟨l, leads, other, done⟩
    · exact Or.inl ⟨fs₁, e, adds, failed⟩
    · exact Or.inr ⟨fs₁, l, adds, leads, other, done⟩

/-- A failed write leaves every file as it is. -/
theorem adds_of_write_error {path text : String} {e : FileError}
    (failed : fs.write path text = (fs', .error e)) : fs.AddsDirectories fs' := by
  rcases fs.write_cases path text with ⟨fs₁, e', adds, result⟩ | ⟨fs₁, l, -, -, -, result⟩
  · obtain ⟨rfl, -⟩ := Prod.mk.inj (result.symm.trans failed)
    exact adds
  · cases (Prod.mk.inj (result.symm.trans failed)).2

/-- The file at a place has the given text. -/
def Holds (fs : Files) (l : Location) (text : String) : Prop :=
  fs.get? l = some (.file (.text text))

theorem Holds.read {path text : String} (holds : fs.Holds l text)
    (leads : fs.locate path = .ok l) : fs.read path = .ok text := by
  unfold Holds at holds
  simp only [Files.read, leads, bind, Except.bind, holds]

/-- After a write the path leads to a file with the text, directories are where they were, and files
elsewhere are untouched. -/
theorem exists_of_write_ok {path text : String} (written : fs.write path text = (fs', .ok ())) :
    ∃ l, fs'.locate path = .ok l ∧ fs'.Holds l text ∧ fs.KeepsDirectories fs' ∧
      ∀ m other, m ≠ l → fs.Holds m other → fs'.Holds m other := by
  rcases fs.write_cases path text with ⟨fs₁, e', adds, result⟩ | ⟨fs₁, l, adds, leads, free, result⟩
  · cases (Prod.mk.inj (result.symm.trans written)).2
  · have keeps := keepsDirectories_insert free (.file (.text text))
    have named := names_ne_nil free
    obtain ⟨rfl, -⟩ := Prod.mk.inj (result.symm.trans written)
    refine ⟨l, keeps.locate leads, ?_, adds.keeps.trans keeps, ?_⟩
    · rw [Holds, get?_insert named, if_pos rfl]
    · intro m other different holds
      rw [Holds, get?_insert named, if_neg different]
      exact adds.file holds

end Files

/-! ## Names in a directory -/

namespace Path

/-- The parts of a path are without slashes. -/
theorem slash_not_mem {path part : List Char} (inside : part ∈ path.splitOn '/') :
    '/' ∉ part := by
  induction path generalizing part with
  | nil => simp_all
  | cons c path ih =>
    rw [List.splitOn_cons_eq_if_modifyHead] at inside
    split at inside
    · rcases List.mem_cons.mp inside with rfl | later
      · simp
      · exact ih later
    next other =>
      cases parts : path.splitOn '/' with
      | nil => exact absurd parts (List.splitOn_ne_nil '/' path)
      | cons first rest =>
        rw [parts, List.modifyHead_cons] at inside
        rw [parts] at ih
        rcases List.mem_cons.mp inside with rfl | later
        · simp only [List.mem_cons, not_or]
          exact ⟨fun same => other (beq_iff_eq.mpr same.symm), ih List.mem_cons_self⟩
        · exact ih (List.mem_cons_of_mem first later)

/-- A name that leads to an entry of a directory. -/
structure Proper (name : List Char) : Prop where
  slash : '/' ∉ name
  nonempty : name ≠ []
  dot : name ≠ ['.']
  dots : name ≠ ['.', '.']

theorem proper_of_fileName? {path name : List Char} (found : fileName? path = some name) :
    Proper name := by
  unfold fileName? at found
  split at found
  next last same =>
    split at found
    · cases found
    next dots =>
      obtain rfl := Option.some.inj found
      have inside := List.mem_of_getLast? same
      rw [names, List.mem_filter, decide_eq_true_iff] at inside
      exact ⟨slash_not_mem inside.1, inside.2.1, inside.2.2, dots⟩
  · cases found

/-- A name in a directory is the last step of its path. -/
theorem steps_join (dir : String) {name : List Char} (proper : Proper name) :
    ∃ before, steps (join dir (String.ofList name)).toList = before ++ [String.ofList name] := by
  have alone : steps name = [String.ofList name] := by
    simp [steps, List.splitOn_eq_singleton proper.slash, proper.nonempty]
  have after : ∀ d : List Char, steps (d ++ '/' :: name) = steps d ++ [String.ofList name] := by
    intro d
    rw [← alone]
    simp [steps, List.splitOn_append_cons_self]
  unfold join
  split
  next within =>
    rw [String.toList_append, String.toList_ofList]
    rcases Bool.or_eq_true_iff.mp within with empty | slash
    · exact ⟨[], by simpa [String.isEmpty_iff.mp empty] using alone⟩
    · obtain ⟨d, ends⟩ : ∃ d, dir.toList = d ++ ['/'] := by
        rw [endsInSlash, beq_iff_eq, List.getLast?_eq_some_iff] at slash
        exact slash
      exact ⟨steps d, by rw [ends, List.append_assoc]; exact after d⟩
  · refine ⟨steps dir.toList, ?_⟩
    have text : (dir ++ "/" ++ String.ofList name).toList = dir.toList ++ '/' :: name := by simp
    rw [text]
    exact after dir.toList

end Path

namespace Files

/-- A path leads to a place that has the last name of the path. -/
theorem locate_join {fs : Files} {dir : String} {name : List Char} {l : Location}
    (proper : Path.Proper name) (leads : fs.locate (Path.join dir (String.ofList name)) = .ok l) :
    ∃ d : Location, l = d.child (String.ofList name) := by
  obtain ⟨before, steps⟩ := Path.steps_join dir proper
  have dot : String.ofList name ≠ "." := fun same =>
    proper.dot (by rw [← String.toList_ofList (l := name), same]; rfl)
  have dots : String.ofList name ≠ ".." := fun same =>
    proper.dots (by rw [← String.toList_ofList (l := name), same]; rfl)
  unfold locate at leads
  split at leads
  · cases leads
  · rw [steps, List.foldlM_append] at leads
    cases walked : before.foldlM fs.step (.origin (Path.join dir (String.ofList name))) with
    | error e =>
      rw [walked] at leads
      cases leads
    | ok d =>
      rw [walked] at leads
      change [String.ofList name].foldlM fs.step d = .ok l at leads
      rw [List.foldlM_cons, step] at leads
      cases here : fs.get? d with
      | none =>
        rw [here] at leads
        cases leads
      | some e =>
        rw [here] at leads
        cases e with
        | file c => cases leads
        | directory =>
          rw [if_neg dot, if_neg dots] at leads
          exact ⟨d, (Except.ok.inj leads).symm⟩

end Files

end Splice
