import Mathlib
import Splice.Proofs.Outputs

/-!
# Inputs without a file name

An output goes into a directory under the name of its input, and a path that is empty, or that ends
at the root or in a parent directory, has no such name. These paths lead to directories at most.
Since an input is read before its output gets a place, the run is over by then, and the error for a
missing name is never seen.
-/
namespace Splice

/-! ## Where nameless paths lead -/

namespace Path

/-- A path that has no file name ends with a step that stays or goes up. -/
theorem exists_last_step {path : List Char} (nameless : fileName? path = none) :
    ∃ before last, steps path = before ++ [last] ∧ (last = "." ∨ last = "..") := by
  obtain ⟨before, part, parts⟩ : ∃ before part, path.splitOn '/' = before ++ [part] :=
    ⟨_, _, (List.dropLast_append_getLast (List.splitOn_ne_nil '/' path)).symm⟩
  refine ⟨before.map fun c => if c.isEmpty then "." else String.ofList c,
    if part.isEmpty then "." else String.ofList part, by simp [steps, parts], ?_⟩
  by_cases empty : part = []
  · exact Or.inl (by simp [empty])
  · rw [if_neg (by simpa using empty)]
    by_cases dot : part = ['.']
    · exact Or.inl (by rw [dot])
    · -- The last part counts as the last name now, so it has to be two dots.
      have last : (names path).getLast? = some part := by
        simp [names, parts, List.filter_append, empty, dot]
      rw [fileName?, last] at nameless
      by_cases dots : part = ['.', '.']
      · exact Or.inr (by rw [dots])
      · simp [dots] at nameless

/-- A slash or a dot at the end does not hide a name; two dots do. -/
example : ["", "/", "./", "a/..", "a/.././", "..a", "a/./"].map (fun p => fileName? p.toList) =
    [none, none, none, none, none, some ['.', '.', 'a'], some ['a']] := by decide +kernel

end Path

namespace Files

variable {fs : Files} {l m : Location}

/-- All directories around a place are there. -/
def Reaches (fs : Files) (l : Location) : Prop :=
  ∀ ns, ns <:+ l.names → ns ≠ l.names → fs.get? { l with names := ns } = some .directory

theorem reaches_of_names_eq_nil (none : l.names = []) : fs.Reaches l := by
  intro ns suffix other
  rw [none, List.suffix_nil] at suffix
  exact absurd (suffix.trans none.symm) other

theorem Reaches.child (reaches : fs.Reaches l) (directory : fs.get? l = some .directory)
    (name : String) : fs.Reaches (l.child name) := by
  intro ns suffix other
  rcases List.suffix_cons_iff.mp suffix with same | within
  · exact absurd same other
  · by_cases here : ns = l.names
    · rw [here]
      exact directory
    · exact reaches ns within here

/-- Going up leads to a directory. -/
theorem Reaches.parent (reaches : fs.Reaches l) :
    fs.Reaches l.parent ∧ fs.get? l.parent = some .directory := by
  unfold Location.parent
  split
  next name ns names =>
    have within : ns <:+ l.names := names ▸ List.suffix_cons name ns
    refine ⟨fun ms suffix other => reaches ms (suffix.trans within) ?_, reaches ns within ?_⟩
    · intro same
      have longer := suffix.length_le
      rw [same, names, List.length_cons] at longer
      exact absurd longer (Nat.not_succ_le_self _)
    · rw [names]
      exact (List.cons_ne_self name ns).symm
  next none =>
    split
    · exact ⟨reaches, by simp [get?, none]⟩
    · exact ⟨reaches_of_names_eq_nil none, by simp [get?, none]⟩

/-- A step is taken from a directory; it stays there, goes up or goes in. -/
theorem step_cases {name : String} (leads : fs.step l name = .ok m) :
    fs.get? l = some .directory ∧
      (name = "." ∧ m = l ∨ name = ".." ∧ m = l.parent ∨
        name ≠ "." ∧ name ≠ ".." ∧ m = l.child name) := by
  unfold step at leads
  split at leads
  · cases leads
  · cases leads
  next directory =>
    refine ⟨directory, ?_⟩
    obtain rfl := Except.ok.inj leads
    split
    next dot => exact Or.inl ⟨dot, rfl⟩
    next dot =>
      split
      next dots => exact Or.inr (Or.inl ⟨dots, rfl⟩)
      next dots => exact Or.inr (Or.inr ⟨dot, dots, rfl⟩)

theorem Reaches.step (reaches : fs.Reaches l) {name : String} (leads : fs.step l name = .ok m) :
    fs.Reaches m := by
  obtain ⟨directory, ⟨-, rfl⟩ | ⟨-, rfl⟩ | ⟨-, -, rfl⟩⟩ := step_cases leads
  · exact reaches
  · exact reaches.parent.1
  · exact reaches.child directory name

/-- Wherever a walk leads, the directories around are there. -/
theorem Reaches.foldlM_step (reaches : fs.Reaches l) {names : List String}
    (leads : names.foldlM fs.step l = .ok m) : fs.Reaches m := by
  induction names generalizing l with
  | nil =>
    obtain rfl := Except.ok.inj leads
    exact reaches
  | cons name names ih =>
    rw [List.foldlM_cons] at leads
    cases first : fs.step l name with
    | error e =>
      rw [first] at leads
      cases leads
    | ok next =>
      rw [first] at leads
      exact ih (reaches.step first) leads

/-- A path without a file name leads to a directory or nowhere. -/
theorem directory_of_locate {path : String} (nameless : Path.fileName? path.toList = none)
    (leads : fs.locate path = .ok l) : fs.get? l = some .directory := by
  unfold locate at leads
  split at leads
  · cases leads
  · obtain ⟨before, last, steps, stays_or_up⟩ := Path.exists_last_step nameless
    rw [steps, List.foldlM_append] at leads
    cases walked : before.foldlM fs.step (.origin path) with
    | error e =>
      rw [walked] at leads
      cases leads
    | ok d =>
      have reaches := (reaches_of_names_eq_nil rfl).foldlM_step walked
      rw [walked] at leads
      have final : fs.step d last = .ok l := by
        change [last].foldlM fs.step d = .ok l at leads
        simpa using leads
      obtain ⟨directory, ⟨-, rfl⟩ | ⟨-, rfl⟩ | ⟨dot, dots, -⟩⟩ := step_cases final
      · exact directory
      · exact reaches.parent.2
      · exact absurd stays_or_up (not_or.mpr ⟨dot, dots⟩)

/-- Nothing is read from a path without a file name. -/
theorem exists_read_error (fs : Files) {path : String}
    (nameless : Path.fileName? path.toList = none) : ∃ e, fs.read path = .error e := by
  unfold read
  cases leads : fs.locate path with
  | error e => exact ⟨e, rfl⟩
  | ok l =>
    refine ⟨.isDirectory, ?_⟩
    simp only [bind, Except.bind, directory_of_locate nameless leads]

end Files

/-! ## Surroundings -/

namespace Surroundings

/-- Only paths with a file name can be read. -/
def NeedsNames {m : Type → Type} [Functor m] (s : Surroundings m) : Prop :=
  ∀ path : String, Path.fileName? path.toList = none →
    SatisfiesM (fun r => ∃ e, r = .error e) (s.read path)

end Surroundings

theorem World.needsNames : World.surroundings.NeedsNames := by
  intro path nameless
  rw [SatisfiesM_StateT_eq]
  exact fun w => SatisfiesM_Id_eq.mpr (w.files.exists_read_error nameless)

namespace Command

/-! ## Runs -/

/-- The result is no error of the program itself. -/
def External {α : Type} (r : Except Error α) : Prop := ∀ message, r ≠ .error (.internal message)

theorem External.error {α β : Type} {e : Error}
    (external : External (.error e : Except Error α)) : External (.error e : Except Error β) :=
  fun message same => external message (congrArg _ (Except.error.inj same))

/-- The input has a name, under which its output can go to its place. -/
def HasPlace (args : TransformArgs) (input : String) : Prop :=
  ∃ name place, Path.fileName? input.toList = some name ∧ destination args input = .ok place

theorem destination_of_fileName? (args : TransformArgs) {input : String} {name : List Char}
    (named : Path.fileName? input.toList = some name) :
    ∃ place, destination args input = .ok place := by
  unfold destination
  rw [named]
  cases args.outDir with
  | none => exact ⟨_, rfl⟩
  | some dir => exact ⟨_, rfl⟩

/-- What the outputs are made from: an input is in error, or has a place for its output. -/
def Deliverable (args : TransformArgs) (x : String × Except Error Output) : Prop :=
  External x.2 ∧ ∀ out, x.2 = .ok out → HasPlace args x.1

theorem transform_external (t : Table) (env : Environment) (path source : String) (minify : Bool) :
    External (transform t env path source minify) := by
  intro message failed
  unfold transform at failed
  cases read : parse (Language.ofPath path) source with
  | error problems =>
    simp only [read] at failed
    cases failed
  | ok parsed =>
    simp only [read] at failed
    cases failed

theorem define_external (c : Config) (definitions : List String) :
    External (define c definitions) := by
  intro message failed
  unfold define at failed
  split at failed <;> cases failed

theorem checkTransform_external (args : TransformArgs) : External (checkTransform args) := by
  intro message failed
  unfold checkTransform at failed
  split at failed
  · cases failed
  · split at failed <;> cases failed

section

variable {m : Type → Type} [Monad m] [LawfulMonad m] (s : Surroundings m)

theorem configFile_external (path : String) : SatisfiesM External (configFile s path) := by
  refine SatisfiesM.bind SatisfiesM.trivial fun r _ => ?_
  cases r with
  | error e => exact .pure nofun
  | ok text =>
    dsimp only
    cases Config.parse text with
    | error message => exact .pure nofun
    | ok c => exact .pure nofun

theorem loadConfig_external (path : Option String) (definitions : List String) :
    SatisfiesM External (loadConfig s path definitions) := by
  cases path with
  | none => exact .pure (define_external {} definitions)
  | some path =>
    refine (configFile_external s path).bind fun r external => ?_
    cases r with
    | error e => exact .pure external.error
    | ok c => exact .pure (define_external c definitions)

variable {s}

theorem transformFile_deliverable (needs : s.NeedsNames) (args : TransformArgs) (t : Table)
    (env : Environment) (minify : Bool) (input : String) :
    SatisfiesM (fun r => Deliverable args (input, r)) (transformFile s t env minify input) := by
  have failed (e : FileError) :
      Deliverable args (input, .error (.io (input ++ ": " ++ e.message))) := ⟨nofun, nofun⟩
  cases named : Path.fileName? input.toList with
  | none =>
    refine (needs input named).bind fun r unread => ?_
    obtain ⟨e, rfl⟩ := unread
    exact .pure (failed e)
  | some name =>
    refine SatisfiesM.bind SatisfiesM.trivial fun r _ => ?_
    cases r with
    | error e => exact .pure (failed e)
    | ok source =>
      obtain ⟨place, goes⟩ := destination_of_fileName? args named
      have has : HasPlace args input := ⟨name, place, named, goes⟩
      exact .pure ⟨transform_external t env input source minify, fun _ _ => has⟩

/-- All outputs have been made before the first of them gets its place. -/
theorem mapM_transformFile_deliverable (needs : s.NeedsNames) (args : TransformArgs) (t : Table)
    (env : Environment) (minify : Bool) (inputs : List String) :
    SatisfiesM (fun outputs => ∀ x ∈ inputs.zip outputs, Deliverable args x)
      (inputs.mapM (transformFile s t env minify)) := by
  induction inputs with
  | nil => exact .pure nofun
  | cons input inputs ih =>
    rw [List.mapM_cons]
    refine (transformFile_deliverable needs args t env minify input).bind fun r first => ?_
    refine ih.bind fun outputs rest => .pure ?_
    rw [List.zip_cons_cons]
    exact List.forall_mem_cons.mpr ⟨first, rest⟩

variable (s)

theorem deliver_external {args : TransformArgs} {input : String} (has : HasPlace args input)
    (code : String) : SatisfiesM External (deliver s args input code) := by
  obtain ⟨-, place, -, goes⟩ := has
  unfold deliver
  rw [goes]
  cases place with
  | none => exact SatisfiesM.bind SatisfiesM.trivial fun _ _ => .pure nofun
  | some path =>
    refine SatisfiesM.bind SatisfiesM.trivial fun r _ => ?_
    cases r with
    | error e => exact .pure nofun
    | ok _ => exact .pure nofun

theorem deliverAll_external {args : TransformArgs} (results : List (String × Except Error Output))
    (deliverable : ∀ x ∈ results, Deliverable args x) (total : Stats) :
    SatisfiesM External (deliverAll s args total results) := by
  induction results generalizing total with
  | nil => exact .pure nofun
  | cons x results ih =>
    obtain ⟨first, rest⟩ := List.forall_mem_cons.mp deliverable
    obtain ⟨input, result⟩ := x
    cases result with
    | error e =>
      exact .pure first.1.error
    | ok out =>
      refine (deliver_external s (first.2 out rfl) out.code).bind fun r external => ?_
      cases r with
      | error e => exact .pure external.error
      | ok _ =>
        dsimp only
        split
        · exact SatisfiesM.bind SatisfiesM.trivial fun _ _ => ih rest _
        · exact ih rest _

theorem runTransform_external (needs : s.NeedsNames) (args : TransformArgs) :
    SatisfiesM External (runTransform s args) := by
  unfold runTransform
  have checked := checkTransform_external args
  cases check : checkTransform args with
  | error e =>
    rw [check] at checked
    exact .pure checked.error
  | ok _ =>
    refine (loadConfig_external s args.config args.definitions).bind fun r external => ?_
    cases r with
    | error e => exact .pure external.error
    | ok config =>
      refine SatisfiesM.bind SatisfiesM.trivial fun env _ => ?_
      refine (mapM_transformFile_deliverable needs args _ env args.minify args.inputs).bind
        fun outputs deliverable => ?_
      refine (deliverAll_external s _ deliverable {}).bind fun r external => ?_
      cases r with
      | error e => exact .pure external.error
      | ok total =>
        dsimp only
        split
        · exact SatisfiesM.bind SatisfiesM.trivial fun _ _ => .pure nofun
        · exact .pure nofun

end

/-! ## In a world that is a value -/

/-- An input without a file name cannot be read, wherever its output is to go. -/
theorem resultIn_of_nameless (w : World) {input : String}
    (nameless : Path.fileName? input.toList = none) :
    ∃ e, w.files.read input = .error e ∧
      ∀ t minify, resultIn w t minify input = .error (.io (input ++ ": " ++ e.message)) := by
  obtain ⟨e, unread⟩ := w.files.exists_read_error nameless
  refine ⟨e, unread, fun t minify => ?_⟩
  simp only [resultIn, transformFile, World.surroundings, bind, StateT.bind, unread]
  rfl

theorem hasPlace_of_resultIn {w : World} {t : Table} {minify : Bool} {input : String}
    {out : Output} (args : TransformArgs) (result : resultIn w t minify input = .ok out) :
    HasPlace args input := by
  cases named : Path.fileName? input.toList with
  | none =>
    obtain ⟨e, -, failed⟩ := resultIn_of_nameless w named
    rw [failed] at result
    cases result
  | some name =>
    obtain ⟨place, goes⟩ := destination_of_fileName? args named
    exact ⟨name, place, named, goes⟩

/-- No run ends in an internal error. This holds in all surroundings where only paths with a file
name can be read: there every input is in error or has a place for its output before the first place
is asked for. A world that is a value is of this kind, since a path without a file name leads to a
directory or nowhere; reading such an input fails, and that is its result. -/
theorem runTransform_never_internal (args : TransformArgs) :
    (∀ (m : Type → Type) [Monad m] [LawfulMonad m] (s : Surroundings m), s.NeedsNames →
      SatisfiesM External (runTransform s args) ∧
      ∀ t env, SatisfiesM (fun outputs => ∀ x ∈ args.inputs.zip outputs, Deliverable args x)
        (args.inputs.mapM (transformFile s t env args.minify))) ∧
    ∀ w : World,
      (∀ message, (runTransform World.surroundings args w).1 ≠ .error (.internal message)) ∧
      (∀ input, Path.fileName? input.toList = none → ∃ e, w.files.read input = .error e ∧
        ∀ t minify, resultIn w t minify input = .error (.io (input ++ ": " ++ e.message))) ∧
      ∀ t minify input out, resultIn w t minify input = .ok out → HasPlace args input := by
  refine ⟨fun m _ _ s needs => ⟨runTransform_external s needs args, fun t env =>
    mapM_transformFile_deliverable needs args t env args.minify args.inputs⟩, fun w => ⟨?_, ?_, ?_⟩⟩
  · have external := runTransform_external World.surroundings World.needsNames args
    rw [SatisfiesM_StateT_eq] at external
    exact SatisfiesM_Id_eq.mp (external w)
  · exact fun input nameless => resultIn_of_nameless w nameless
  · exact fun t minify input out result => hasPlace_of_resultIn args result

/-- A directory is no input, also if it is named from inside another one; the run is over before the
output of the first input gets its place. -/
theorem runTransform_never_internal_dots :
    let args : TransformArgs := { inputs := ["s/../", "a.js"], outDir := some "out" }
    let w : World :=
      { files := (({} : Files).add "a.js" (some (.text "1;"))).add "s" none }
    Path.fileName? "s/../".toList = none ∧
      (∃ message, destination args "s/../" = .error (.internal message)) ∧
      (runTransform World.surroundings args w).1 =
        .error (.io "s/../: Is a directory (os error 21)") ∧
      SatisfiesM External (runTransform World.surroundings args) ∧
      (∃ e, w.files.read "s/../" = .error e) ∧ HasPlace args "a.js" := by
  intro args w
  obtain ⟨general, world⟩ := runTransform_never_internal args
  have nameless : Path.fileName? "s/../".toList = none := rfl
  obtain ⟨e, unread, -⟩ := (world w).2.1 "s/../" nameless
  have result : resultIn w (Table.ofConfig {}) false "a.js" = .ok ⟨"1;\n", {}⟩ := rfl
  refine ⟨nameless, ⟨_, rfl⟩, ?_, (general _ _ World.needsNames).1, ⟨e, unread⟩, ?_⟩
  · rfl
  · exact (world w).2.2 _ false "a.js" _ result

end Command

end Splice
