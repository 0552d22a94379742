import Mathlib
import Splice.Command.Run
import Splice.Proofs.Files

/-!
# The outputs of a run

A run reads and transforms all its inputs before it writes the first output. So what an input gives
is decided by the files as they are at the start, also where outputs take the place of inputs; and
the files at the end are those at the start with the outputs written in order, up to the first input
that cannot be transformed or output that cannot be written.
-/
namespace Splice

namespace Command

/-- What an input gives in a world, before anything is written there. -/
def resultIn (w : World) (t : Table) (minify : Bool) (input : String) : Except Error Output :=
  (transformFile World.surroundings t w.environment minify input w).1

/-- The files after an output has gone to its destination, and whether it got there. -/
def writeOutput (args : TransformArgs) (fs : Files) (input code : String) :
    Files × Except Error Unit :=
  match destination args input with
  | .error e => (fs, .error e)
  | .ok none => (fs, .ok ())
  | .ok (some path) =>
    match fs.write path code with
    | (fs', .error e) => (fs', .error (.io e.message))
    | (fs', .ok ()) => (fs', .ok ())

/-- The outputs can be written one after the other to the first files, which become the second. -/
inductive Written (args : TransformArgs) : Files → List (String × Output) → Files → Prop where
  | nil (fs : Files) : Written args fs [] fs
  | cons {fs fs' fs'' : Files} {o : String × Output} {os : List (String × Output)}
      (first : writeOutput args fs o.1 o.2.code = (fs', .ok ())) (rest : Written args fs' os fs'') :
      Written args fs (o :: os) fs''

/-- What is printed for an output. -/
def printedFor (args : TransformArgs) (o : String × Output) : String :=
  if args.output = none ∧ args.outDir = none then o.2.code else ""

/-! ## Reading -/

theorem transformFile_eq (w : World) (t : Table) (minify : Bool) (input : String) :
    transformFile World.surroundings t w.environment minify input w =
      (resultIn w t minify input, w) := by
  unfold resultIn
  simp only [transformFile, World.surroundings, bind, StateT.bind]
  cases w.files.read input <;> rfl

/-- All inputs are read in the same world. -/
theorem mapM_transformFile (w : World) (t : Table) (minify : Bool) (inputs : List String) :
    inputs.mapM (transformFile World.surroundings t w.environment minify) w =
      (inputs.map (resultIn w t minify), w) := by
  induction inputs with
  | nil => rfl
  | cons input inputs ih =>
    rw [List.mapM_cons]
    simp only [bind, StateT.bind, transformFile_eq, ih]
    rfl

theorem loadConfig_snd (w : World) (path : Option String) (ds : List String) :
    (loadConfig World.surroundings path ds w).2 = w := by
  cases path with
  | none => rfl
  | some path =>
    simp only [loadConfig, configFile, World.surroundings, bind, StateT.bind]
    cases w.files.read path with
    | error e => rfl
    | ok text =>
      simp only
      cases Config.parse text <;> rfl

/-! ## Writing -/

/-- An output is printed where it has no destination. -/
theorem printedFor_eq (args : TransformArgs) (o : String × Output) :
    printedFor args o =
      match destination args o.1 with
      | .ok none => o.2.code
      | _ => "" := by
  unfold printedFor destination
  cases args.outDir with
  | none => cases args.output <;> rfl
  | some dir => cases Path.fileName? o.1.toList <;> simp

theorem deliver_eq (args : TransformArgs) (o : String × Output) (w : World) :
    deliver World.surroundings args o.1 o.2.code w =
      ((writeOutput args w.files o.1 o.2.code).2,
        { w with
          files := (writeOutput args w.files o.1 o.2.code).1
          printed := w.printed ++ printedFor args o }) := by
  rw [printedFor_eq]
  unfold deliver writeOutput
  cases destination args o.1 with
  | error e => simp [pure, StateT.pure]
  | ok place =>
    cases place with
    | none => rfl
    | some path =>
      simp only [World.surroundings, World.write, bind, StateT.bind, String.append_empty]
      rcases w.files.write path o.2.code with ⟨fs', _ | _⟩ <;> rfl

/-- Writing an output fails and leaves every file as it is, has nothing to do, or writes one file. -/
theorem writeOutput_cases (args : TransformArgs) (fs : Files) (input code : String) :
    (∃ e fs', destination args input ≠ .ok none ∧ fs.AddsDirectories fs' ∧
        writeOutput args fs input code = (fs', .error e)) ∨
      destination args input = .ok none ∧ writeOutput args fs input code = (fs, .ok ()) ∨
      ∃ path fs', destination args input = .ok (some path) ∧ fs.write path code = (fs', .ok ()) ∧
        writeOutput args fs input code = (fs', .ok ()) := by
  unfold writeOutput
  cases destination args input with
  | error e => exact Or.inl ⟨e, fs, by simp, .refl fs, rfl⟩
  | ok place =>
    cases place with
    | none => exact Or.inr (Or.inl ⟨rfl, rfl⟩)
    | some path =>
      rcases written : fs.write path code with ⟨fs', e | _⟩
      · have adds := Files.adds_of_write_error written
        exact Or.inl ⟨.io e.message, fs', by simp, adds, by simp [written]⟩
      · exact Or.inr (Or.inr ⟨path, fs', rfl, written, by simp [written]⟩)

/-- An output that cannot be written was to go to a file. -/
theorem printedFor_of_error {args : TransformArgs} {fs fs' : Files} {o : String × Output}
    {e : Error} (failed : writeOutput args fs o.1 o.2.code = (fs', .error e)) :
    printedFor args o = "" := by
  rcases writeOutput_cases args fs o.1 o.2.code with
    ⟨_, _, place, -, written⟩ | ⟨-, written⟩ | ⟨_, _, -, -, written⟩
  · rw [printedFor_eq]
    split
    next nowhere => exact absurd nowhere place
    · rfl
  all_goals
    rw [written] at failed
    cases failed

/-- A failed output leaves every file as it is. -/
theorem adds_of_writeOutput_error {args : TransformArgs} {fs fs' : Files} {input code : String}
    {e : Error} (failed : writeOutput args fs input code = (fs', .error e)) :
    fs.AddsDirectories fs' := by
  rcases writeOutput_cases args fs input code with
    ⟨_, fs₁, -, adds, result⟩ | ⟨-, result⟩ | ⟨_, _, -, -, result⟩
  · obtain rfl : fs₁ = fs' := congrArg Prod.fst (result.symm.trans failed)
    exact adds
  all_goals
    rw [result] at failed
    cases failed

/-- The world after an output has been delivered, with the files as they are then. -/
def afterOutput (args : TransformArgs) (o : String × Output) (fs : Files) (w : World) : World :=
  { w with
    files := fs
    printed := w.printed ++ printedFor args o
    printedErrors := w.printedErrors ++ if args.stats then statsLine o.1 o.2.stats else "" }

theorem deliverAll_ok {args : TransformArgs} {o : String × Output} {w : World} {fs : Files}
    (written : writeOutput args w.files o.1 o.2.code = (fs, .ok ())) (total : Stats)
    (rest : List (String × Except Error Output)) :
    deliverAll World.surroundings args total ((o.1, .ok o.2) :: rest) w =
      deliverAll World.surroundings args (total + o.2.stats) rest (afterOutput args o fs w) := by
  rw [deliverAll]
  simp only [bind, StateT.bind, deliver_eq, written]
  unfold afterOutput
  cases args.stats with
  | true => rfl
  | false => simp only [Bool.false_eq_true, if_false, String.append_empty]

theorem deliverAll_error {args : TransformArgs} {o : String × Output} {w : World} {fs : Files}
    {e : Error} (failed : writeOutput args w.files o.1 o.2.code = (fs, .error e)) (total : Stats)
    (rest : List (String × Except Error Output)) :
    deliverAll World.surroundings args total ((o.1, .ok o.2) :: rest) w =
      (.error e, { w with files := fs }) := by
  rw [deliverAll]
  simp only [bind, StateT.bind, deliver_eq, failed, printedFor_of_error failed,
    String.append_empty]
  rfl

/-! ## Runs -/

/-- The sums of what was done for outputs. -/
def totalOf (os : List (String × Output)) : Stats where
  replaced := (os.map fun o => o.2.stats.replaced).sum
  unresolved := (os.map fun o => o.2.stats.unresolved).sum
  rejected := (os.map fun o => o.2.stats.rejected).sum

theorem add_totalOf_cons (s : Stats) (o : String × Output) (os : List (String × Output)) :
    s + totalOf (o :: os) = s + o.2.stats + totalOf os := by
  change Stats.add s (totalOf (o :: os)) = Stats.add (Stats.add s o.2.stats) (totalOf os)
  simp only [Stats.add, totalOf, List.map_cons, List.sum_cons, Nat.add_assoc]

/-- How a run ends when its first outputs have been written and the given inputs are left: with the
total if none is left, else with the error of the first of them, whose output may leave directories
behind. -/
inductive Ends (args : TransformArgs) (results : String → Except Error Output) (total : Stats)
    (fs : Files) : List String → Except Error Stats → Files → Prop where
  | complete : Ends args results total fs [] (.ok total) fs
  | noResult {input : String} {rest : List String} {e : Error}
      (result : results input = .error e) :
      Ends args results total fs (input :: rest) (.error e) fs
  | noOutput {input : String} {rest : List String} {out : Output} {e : Error} {fs' : Files}
      (result : results input = .ok out)
      (failed : writeOutput args fs input out.code = (fs', .error e))
      (adds : fs.AddsDirectories fs') :
      Ends args results total fs (input :: rest) (.error e) fs'

/-- A run over inputs whose results are known: the outputs that are written, those printed, and the
end. -/
structure Course (args : TransformArgs) (results : String → Except Error Output)
    (inputs : List String) (start : World) (total : Stats) (result : Except Error Stats)
    (finish : World) (done : List (String × Output)) (rest : List String) (fs : Files) :
    Prop where
  parts : inputs = done.map Prod.fst ++ rest
  outputs : ∀ o ∈ done, results o.1 = .ok o.2
  written : Written args start.files done fs
  ends : Ends args results (total + totalOf done) fs rest result finish.files
  printed : finish.printed = start.printed ++ String.join (done.map (printedFor args))

/-- A run that is over before its first output. -/
theorem Course.ofEnds {args : TransformArgs} {results : String → Except Error Output}
    {inputs : List String} {start finish : World} {total : Stats} {result : Except Error Stats}
    (ends : Ends args results total start.files inputs result finish.files)
    (printed : finish.printed = start.printed) :
    Course args results inputs start total result finish [] inputs start.files where
  parts := rfl
  outputs := by simp
  written := .nil start.files
  ends := ends
  printed := by rw [printed]; exact String.append_empty.symm

/-- Outputs are written in order, up to the first failure. -/
theorem course_deliverAll (args : TransformArgs) (results : String → Except Error Output)
    (inputs : List String) (w : World) (total : Stats) :
    ∃ done rest fs,
      Course args results inputs w total
        (deliverAll World.surroundings args total (inputs.map fun i => (i, results i)) w).1
        (deliverAll World.surroundings args total (inputs.map fun i => (i, results i)) w).2
        done rest fs := by
  induction inputs generalizing w total with
  | nil => exact ⟨[], [], w.files, .ofEnds .complete rfl⟩
  | cons input inputs ih =>
    rw [List.map_cons]
    cases result : results input with
    | error e => exact ⟨[], input :: inputs, w.files, .ofEnds (.noResult result) rfl⟩
    | ok out =>
      rcases written : writeOutput args w.files input out.code with ⟨fs, e | _⟩
      · rw [deliverAll_error (o := (input, out)) written]
        have adds := adds_of_writeOutput_error written
        exact ⟨[], input :: inputs, w.files, .ofEnds (.noOutput result written adds) rfl⟩
      · rw [deliverAll_ok (o := (input, out)) written]
        obtain ⟨done, rest, fs', course⟩ := ih (afterOutput args (input, out) fs w) (total + out.stats)
        refine ⟨(input, out) :: done, rest, fs', ?_, ?_, ?_, ?_, ?_⟩
        · rw [course.parts]
          rfl
        · simpa [result] using course.outputs
        · exact .cons written course.written
        · rw [add_totalOf_cons]
          exact course.ends
        · rw [course.printed, List.map_cons, String.join_cons]
          exact String.append_assoc

/-- The configuration that the arguments ask for. -/
def configIn (w : World) (args : TransformArgs) : Except Error Config :=
  (loadConfig World.surroundings args.config args.definitions w).1

theorem runTransform_of_check {args : TransformArgs} {e : Error}
    (refused : checkTransform args = .error e) (w : World) :
    runTransform World.surroundings args w = (.error e, w) := by
  rw [runTransform, refused]
  rfl

theorem runTransform_of_configIn {args : TransformArgs} {w : World} {e : Error}
    (accepted : checkTransform args = .ok ()) (failed : configIn w args = .error e) :
    runTransform World.surroundings args w = (.error e, w) := by
  have loaded : loadConfig World.surroundings args.config args.definitions w = (.error e, w) :=
    Prod.ext failed (loadConfig_snd w args.config args.definitions)
  rw [runTransform, accepted]
  simp only [bind, StateT.bind, loaded]
  rfl

/-- What comes after the last output is written to the standard error only. -/
theorem runTransform_eq {args : TransformArgs} {w : World} {c : Config}
    (accepted : checkTransform args = .ok ()) (loaded : configIn w args = .ok c) :
    ∃ errors,
      runTransform World.surroundings args w =
        ((deliverAll World.surroundings args {}
            (args.inputs.map fun i => (i, resultIn w (Table.ofConfig c) args.minify i)) w).1,
          { (deliverAll World.surroundings args {}
              (args.inputs.map fun i => (i, resultIn w (Table.ofConfig c) args.minify i)) w).2 with
            printedErrors := errors }) := by
  have read : loadConfig World.surroundings args.config args.definitions w = (.ok c, w) :=
    Prod.ext loaded (loadConfig_snd w args.config args.definitions)
  have together : args.inputs.zip (args.inputs.map (resultIn w (Table.ofConfig c) args.minify)) =
      args.inputs.map fun i => (i, resultIn w (Table.ofConfig c) args.minify i) := by
    rw [← List.zip_map', List.map_id']
  have surrounded (names : List String) :
      World.surroundings.environment names w = (w.environment, w) := rfl
  rw [runTransform, accepted]
  simp only [bind, StateT.bind, read, surrounded, mapM_transformFile, together]
  rcases deliverAll World.surroundings args {}
    (args.inputs.map fun i => (i, resultIn w (Table.ofConfig c) args.minify i)) w
    with ⟨e | total, w'⟩
  · exact ⟨w'.printedErrors, rfl⟩
  · dsimp only
    split
    · exact ⟨_, rfl⟩
    · exact ⟨w'.printedErrors, rfl⟩

/-- Where nothing can be written, the codes are printed. -/
theorem join_printedFor (args : TransformArgs) (done : List (String × Output)) :
    String.join (done.map (printedFor args)) =
      if args.output = none ∧ args.outDir = none then String.join (done.map fun o => o.2.code)
      else "" := by
  unfold printedFor
  split
  · rfl
  · induction done with
    | nil => rfl
    | cons o done ih => rw [List.map_cons, String.join_cons, ih, String.append_empty]

/-- The file semantics of a run. Each input is read and transformed in the world as it is at the
start; the outputs of the inputs before the first failure are written, in order, to the files, and
printed if they have no other place to go; the run ends with the sums of what was done for all inputs,
or with the error of the input that failed. Arguments that cannot be followed and a configuration that
cannot be read change nothing. -/
theorem runTransform_course (args : TransformArgs) (w : World) :
    (∀ e, checkTransform args = .error e →
      runTransform World.surroundings args w = (.error e, w)) ∧
    (∀ e, checkTransform args = .ok () → configIn w args = .error e →
      runTransform World.surroundings args w = (.error e, w)) ∧
    ∀ c, checkTransform args = .ok () → configIn w args = .ok c →
      ∃ done rest fs,
        args.inputs = done.map Prod.fst ++ rest ∧
        (∀ o ∈ done, resultIn w (Table.ofConfig c) args.minify o.1 = .ok o.2) ∧
        Written args w.files done fs ∧
        Ends args (resultIn w (Table.ofConfig c) args.minify) (totalOf done) fs rest
          (runTransform World.surroundings args w).1
          (runTransform World.surroundings args w).2.files ∧
        (runTransform World.surroundings args w).2.printed = w.printed ++
          if args.output = none ∧ args.outDir = none then String.join (done.map fun o => o.2.code)
          else "" := by
  refine ⟨fun e refused => runTransform_of_check refused w,
    fun e accepted failed => runTransform_of_configIn accepted failed, fun c accepted loaded => ?_⟩
  obtain ⟨errors, run⟩ := runTransform_eq accepted loaded
  obtain ⟨done, rest, fs, course⟩ :=
    course_deliverAll args (resultIn w (Table.ofConfig c) args.minify) args.inputs w {}
  have ends := course.ends
  have printed := course.printed
  rw [Stats.zero_add] at ends
  rw [join_printedFor] at printed
  rw [run]
  exact ⟨done, rest, fs, course.parts, course.outputs, course.written, ends, printed⟩

/-- Both outputs go to the place of the second input, which is still read as it was at the start. -/
theorem runTransform_course_in_place :
    let args : TransformArgs := { inputs := ["s/b.js", "b.js"], outDir := some "." }
    let w : World :=
      { files := (({} : Files).add "s/b.js" (some (.text "1;"))).add "b.js" (some (.text "2;")) }
    checkTransform args = .ok () ∧ configIn w args = .ok {} ∧
      ((runTransform World.surroundings args w).2.files.read "b.js").toOption = some "2;\n" ∧
      ∃ done rest fs,
        args.inputs = done.map Prod.fst ++ rest ∧
        (∀ o ∈ done, resultIn w (Table.ofConfig {}) args.minify o.1 = .ok o.2) ∧
        Written args w.files done fs ∧
        Ends args (resultIn w (Table.ofConfig {}) args.minify) (totalOf done) fs rest
          (runTransform World.surroundings args w).1
          (runTransform World.surroundings args w).2.files ∧
        (runTransform World.surroundings args w).2.printed = w.printed ++
          if args.output = none ∧ args.outDir = none then String.join (done.map fun o => o.2.code)
          else "" := by
  intro args w
  have accepted : checkTransform args = .ok () := rfl
  have loaded : configIn w args = .ok {} := rfl
  exact ⟨accepted, loaded, by decide +kernel, (runTransform_course args w).2.2 {} accepted loaded⟩

/-! ## Outputs in a directory -/

section Directory

variable {args : TransformArgs} {dir : String} {fs fs' : Files}

/-- An output goes to the entry of the directory that has the file name of its input, and files
elsewhere are untouched. -/
theorem exists_entry_of_writeOutput {input code : String} (placed : args.outDir = some dir)
    (written : writeOutput args fs input code = (fs', .ok ())) :
    ∃ (name : List Char) (d : Location), Path.fileName? input.toList = some name ∧
      fs'.locate (Path.join dir (String.ofList name)) = .ok (d.child (String.ofList name)) ∧
      fs'.Holds (d.child (String.ofList name)) code ∧ fs.KeepsDirectories fs' ∧
      ∀ l text, l ≠ d.child (String.ofList name) → fs.Holds l text → fs'.Holds l text := by
  rcases writeOutput_cases args fs input code with
    ⟨_, _, -, -, failed⟩ | ⟨nowhere, -⟩ | ⟨path, fs₁, place, put, result⟩
  · rw [failed] at written
    cases written
  · rw [destination, placed] at nowhere
    dsimp only at nowhere
    split at nowhere <;> cases nowhere
  · obtain rfl : fs₁ = fs' := congrArg Prod.fst (result.symm.trans written)
    rw [destination, placed] at place
    dsimp only at place
    split at place
    next name found =>
      obtain rfl : Path.join dir (String.ofList name) = path :=
        Option.some.inj (Except.ok.inj place)
      obtain ⟨l, leads, holds, keeps, others⟩ := Files.exists_of_write_ok put
      obtain ⟨d, rfl⟩ := Files.locate_join (Path.proper_of_fileName? found) leads
      exact ⟨name, d, found, leads, holds, keeps, others⟩
    · cases place

/-- A file stays as it is while outputs of inputs with other names are written. -/
theorem Written.holds {done : List (String × Output)} (placed : args.outDir = some dir)
    (written : Written args fs done fs') {d : Location} {name : List Char} {text : String}
    (holds : fs.Holds (d.child (String.ofList name)) text)
    (others : ∀ o ∈ done, Path.fileName? o.1.toList ≠ some name) :
    fs'.Holds (d.child (String.ofList name)) text := by
  induction written with
  | nil fs => exact holds
  | cons first rest ih =>
    obtain ⟨name', d', found, -, -, -, untouched⟩ := exists_entry_of_writeOutput placed first
    refine ih (untouched _ _ ?_ holds) fun o inside => others o (List.mem_cons_of_mem _ inside)
    intro same
    have names := (List.cons.inj (congrArg Location.names same)).1
    rw [String.ofList_inj] at names
    exact others _ List.mem_cons_self (names ▸ found)

theorem Written.keepsDirectories {done : List (String × Output)} (placed : args.outDir = some dir)
    (written : Written args fs done fs') : fs.KeepsDirectories fs' := by
  induction written with
  | nil fs => exact fun _ there => there
  | cons first rest ih =>
    obtain ⟨-, -, -, -, -, keeps, -⟩ := exists_entry_of_writeOutput placed first
    exact keeps.trans ih

/-- An output is read where it was written, unless a later input has the same name. -/
theorem Written.read_of_last {before after : List (String × Output)} {o : String × Output}
    (placed : args.outDir = some dir) (written : Written args fs (before ++ o :: after) fs') :
    ∃ name, Path.fileName? o.1.toList = some name ∧
      ((∀ later ∈ after, Path.fileName? later.1.toList ≠ some name) →
        fs'.read (Path.join dir (String.ofList name)) = .ok o.2.code) := by
  induction before generalizing fs with
  | nil =>
    cases written with
    | cons first rest =>
      obtain ⟨name, d, found, leads, holds, -, -⟩ := exists_entry_of_writeOutput placed first
      refine ⟨name, found, fun others => ?_⟩
      exact (rest.holds placed holds others).read ((rest.keepsDirectories placed).locate leads)
  | cons _ before ih =>
    cases written with
    | cons first rest => exact ih rest

/-- Two entries of a directory at one place have one name. -/
theorem eq_of_locate_join {n n' : List Char} {l : Location} (proper : Path.Proper n)
    (proper' : Path.Proper n') (leads : fs.locate (Path.join dir (String.ofList n)) = .ok l)
    (leads' : fs.locate (Path.join dir (String.ofList n')) = .ok l) : n = n' := by
  obtain ⟨d, rfl⟩ := Files.locate_join proper leads
  obtain ⟨d', same⟩ := Files.locate_join proper' leads'
  exact String.ofList_injective (List.cons.inj (congrArg Location.names same)).1

/-- A run that succeeds has written the outputs of all its inputs. -/
theorem exists_written_of_ok {w : World} {total : Stats}
    (succeeds : (runTransform World.surroundings args w).1 = .ok total) :
    ∃ c done, configIn w args = .ok c ∧ args.inputs = done.map Prod.fst ∧
      (∀ o ∈ done, resultIn w (Table.ofConfig c) args.minify o.1 = .ok o.2) ∧
      Written args w.files done (runTransform World.surroundings args w).2.files := by
  cases accepted : checkTransform args with
  | error e =>
    rw [runTransform_of_check accepted] at succeeds
    cases succeeds
  | ok _ =>
    cases loaded : configIn w args with
    | error e =>
      rw [runTransform_of_configIn accepted loaded] at succeeds
      cases succeeds
    | ok c =>
      obtain ⟨errors, run⟩ := runTransform_eq accepted loaded
      obtain ⟨done, rest, fs, course⟩ :=
        course_deliverAll args (resultIn w (Table.ofConfig c) args.minify) args.inputs w {}
      rw [run] at succeeds ⊢
      have parts := course.parts
      have ends := course.ends
      rw [succeeds] at ends
      generalize left : (deliverAll World.surroundings args {} _ w).2.files = fs' at ends
      cases ends with
      | complete =>
        rw [List.append_nil] at parts
        exact ⟨c, done, rfl, parts, course.outputs, left ▸ course.written⟩

/-- With an output directory a run that succeeds keeps, for each file name, the output of the last
input with that name, and outputs of different names are different files. So no output is lost where no
two inputs have one file name. -/
theorem outDir_keeps_last_of_name {w : World} {total : Stats} (placed : args.outDir = some dir)
    (succeeds : (runTransform World.surroundings args w).1 = .ok total) :
    ∃ c, configIn w args = .ok c ∧
      (∀ before input after, args.inputs = before ++ input :: after →
        ∃ name out, Path.fileName? input.toList = some name ∧
          resultIn w (Table.ofConfig c) args.minify input = .ok out ∧
          ((∀ later ∈ after, Path.fileName? later.toList ≠ some name) →
            (runTransform World.surroundings args w).2.files.read
              (Path.join dir (String.ofList name)) = .ok out.code)) ∧
      ∀ input ∈ args.inputs, ∀ other ∈ args.inputs, ∀ n n' l,
        Path.fileName? input.toList = some n → Path.fileName? other.toList = some n' →
        (runTransform World.surroundings args w).2.files.locate
          (Path.join dir (String.ofList n)) = .ok l →
        (runTransform World.surroundings args w).2.files.locate
          (Path.join dir (String.ofList n')) = .ok l → n = n' := by
  obtain ⟨c, done, loaded, inputs, outputs, written⟩ := exists_written_of_ok succeeds
  refine ⟨c, loaded, ?_, ?_⟩
  · intro before input after parts
    rw [inputs, List.map_eq_append_iff] at parts
    obtain ⟨done₁, done₂, rfl, rfl, parts⟩ := parts
    obtain ⟨o, done₃, rfl, rfl, rfl⟩ := List.map_eq_cons_iff.mp parts
    obtain ⟨name, found, last⟩ := written.read_of_last placed
    refine ⟨name, o.2, found, outputs o (by simp), fun others => last fun later inside => ?_⟩
    exact others later.1 (List.mem_map_of_mem inside)
  · intro input _ other _ n n' l found found' leads leads'
    exact eq_of_locate_join (Path.proper_of_fileName? found) (Path.proper_of_fileName? found')
      leads leads'

/-- The last of three inputs takes the place of the first. -/
theorem outDir_keeps_last_of_name_three :
    let args : TransformArgs :=
      { inputs := ["a/x.js", "b/y.js", "c/x.js"], outDir := some "o", minify := true }
    let w : World :=
      { files := ((({} : Files).add "a/x.js" (some (.text "1;"))).add "b/y.js"
          (some (.text "2;"))).add "c/x.js" (some (.text "3;")) }
    args.outDir = some "o" ∧ (runTransform World.surroundings args w).1 = .ok {} ∧
      ∃ c, configIn w args = .ok c ∧
        (∀ before input after, args.inputs = before ++ input :: after →
          ∃ name out, Path.fileName? input.toList = some name ∧
            resultIn w (Table.ofConfig c) args.minify input = .ok out ∧
            ((∀ later ∈ after, Path.fileName? later.toList ≠ some name) →
              (runTransform World.surroundings args w).2.files.read
                (Path.join "o" (String.ofList name)) = .ok out.code)) ∧
        ∀ input ∈ args.inputs, ∀ other ∈ args.inputs, ∀ n n' l,
          Path.fileName? input.toList = some n → Path.fileName? other.toList = some n' →
          (runTransform World.surroundings args w).2.files.locate
            (Path.join "o" (String.ofList n)) = .ok l →
          (runTransform World.surroundings args w).2.files.locate
            (Path.join "o" (String.ofList n')) = .ok l → n = n' := by
  intro args w
  have succeeds : (runTransform World.surroundings args w).1 = .ok {} :=
    ok_of_toOption (by decide +kernel)
  exact ⟨rfl, succeeds, outDir_keeps_last_of_name rfl succeeds⟩

/-- Different inputs may have one file name, and then an output is lost: the run succeeds, the first
input has an output, and the only new file has that of the second. -/
theorem outDir_loses_output :
    let args : TransformArgs := { inputs := ["a/x.js", "b/x.js"], outDir := some "o" }
    let w : World :=
      { files := (({} : Files).add "a/x.js" (some (.text "1;"))).add "b/x.js" (some (.text "2;")) }
    args.inputs.Nodup ∧ (runTransform World.surroundings args w).1 = .ok {} ∧
      (resultIn w (Table.ofConfig {}) args.minify "a/x.js").toOption = some ⟨"1;\n", {}⟩ ∧
      w.files.changes (runTransform World.surroundings args w).2.files = [("o/x.js", "2;\n")] := by
  refine ⟨by decide, ok_of_toOption (by decide +kernel), by decide +kernel, by decide +kernel⟩

end Directory

end Command

end Splice
