import Splice.Proofs.Precedence
import Splice.Proofs.Spacing

/-!
# Programs of assignments

A line assigns the value of a term to a name. A program of such lines is read back from what the
printer writes for it.
-/
namespace Splice

variable {input : Source}

/-- The assignment of a term to a name. -/
structure Line where
  target : Name
  value : Term
  /-- These words begin declarations. -/
  plain : ["let", "using"].contains target.text = false

namespace Line

def node (x : Line) : Node :=
  .mk .expressionStatement .part ⟨⟨0, 0⟩, []⟩ [Term.expr (.assign .plain)
    [.mk (.identifier x.target.text) .part ⟨⟨0, 0⟩, []⟩ [], x.value.node]]

def toks (x : Line) : List Tok :=
  .word x.target.toWord :: .mark .eq :: (x.value.toks ++ [.mark .semicolon])

def text (x : Line) : List Char :=
  x.target.text.toList ++ ' ' :: '=' :: ' ' :: (x.value.text none ++ [';', '\n'])

theorem target_ne (x : Line) {w : String} (taken : ["let", "using"].contains w = true) :
    x.target.text ≠ w := by
  intro same
  have plain := x.plain
  rw [same, taken] at plain
  cases plain

/-- The line as it is read back. -/
def regroup (x : Line) : Line := { x with value := x.value.regroup }

end Line

/-- The tree of a program. -/
def linesNode (elements : Bool) (xs : List Line) : Node :=
  .mk (.program none elements) .part ⟨⟨0, 0⟩, []⟩ (xs.map Line.node)

/-! ## Reading -/

namespace Line

variable {l : Language} {c : Context} {st : ReadState input} {rest : List Tok} {d : Nat}

/-- The node is the assignment of the line. -/
def IsRead (x : Line) (n : Node) : Prop :=
  ∃ spans spans' v, n = .mk (.assign .plain) .value spans [.mk (.identifier x.target.text) .part spans' [], v] ∧
    v.bare = x.value.regroup.node

theorem cover_name {n : Node} {w : Name} (reads : n.Reads (.name w) false) :
    ∃ spans, n = .mk (.identifier w.text) .value spans [] ∧
      ∀ st : ReadState input, Read.cover .whole n st = .ok (.mk (.identifier w.text) .part spans []) st := by
  obtain ⟨form, place, spans, cs⟩ := n
  have other : form ≠ .parens := by
    rintro rfl
    cases reads.parens
  have tree := reads.tree
  rw [Node.bare_mk place spans cs other] at tree
  obtain ⟨rfl, rfl, -, none⟩ := Node.mk.inj tree
  obtain rfl := List.map_eq_nil_iff.mp none
  exact ⟨spans, rfl, fun st => rfl⟩

theorem assignment_read (x : Line) (enough : 4 * x.value.weight + 4 ≤ d)
    (allowed : c.allowIn = true) (ready : st.Ready l c (x.toks ++ rest)) :
    ∃ n st', Read.descend (d + 1) (.assignment true) st = .ok n st' ∧ x.IsRead n ∧
      st'.Ready l c (.mark .semicolon :: rest) := by
  simp only [toks, List.cons_append, List.append_assoc, List.nil_append] at ready
  obtain ⟨d, rfl⟩ : ∃ m, d = m + 2 := ⟨d - 2, by omega⟩
  obtain ⟨st₁, same, ready₁⟩ := Read.assignment_term (Read.descend (d + 2)) true ready
    (.name x.target) (.name x.target _)
  have weight : (Term.name x.target).weight = 1 := rfl
  have looped : (Term.name x.target).LoopedBy (d + 1) .comma (Term.name x.target).toks false :=
    (Term.name x.target).readable.looped (by rw [weight]; omega) trivial
  have next : follows (.mark .eq :: (x.value.toks ++ .mark .semicolon :: rest)) := by
    intro t first
    cases first
    rfl
  have stop : stops .comma (.mark .eq :: (x.value.toks ++ .mark .semicolon :: rest)) := by
    intro t first op found
    cases first
    cases found
  obtain ⟨left, st₂, first, reads, ready₂⟩ := looped.finish allowed next (fun _ => trivial) stop ready₁
  obtain ⟨spans, rfl, cover⟩ := cover_name reads
  have kind : st₂.token.kind = .punct .eq := ready₂.kind_eq rfl
  obtain ⟨st₃, moved, ready₃⟩ := ready₂.bump kind
  have closed : closes (.mark .semicolon :: rest) := by
    intro t first
    cases first
    rfl
  have read : x.value.ReadBy (Read.descend (d + 2)) := x.value.readable.assigned (by omega)
  obtain ⟨v, st₄, second, value, ready₄⟩ := read true allowed closed ready₃
  refine ⟨_, st₄, ?_, ⟨⟨⟨st.token.start, st₄.lastStop⟩, []⟩, spans, v, rfl, value.tree⟩, ready₄⟩
  change Read.assignment (Read.descend (d + 2)) true st = _
  rw [same, Read.bind_ok first]
  unfold Read.assignmentRest
  simp only [Read.kind_bind, kind]
  change (Read.cover .whole _ >>= fun target => Read.bump >>= fun _ =>
    Read.descend (d + 2) (.assignment true) >>= fun v =>
    Read.value (.assign .plain) st.token.start [target, v]) st₂ = _
  rw [Read.bind_ok (cover st₂), Read.bind_ok moved, Read.bind_ok second]
  rfl

/-- A line is read as an expression with a semicolon after it. -/
theorem expressionStatement_read (x : Line) (enough : 4 * x.value.weight + 4 ≤ d)
    (allowed : c.allowIn = true) (ready : st.Ready l c (x.toks ++ rest)) :
    ∃ n st', Read.expressionStatement (Read.descend (d + 2)) st = .ok n st' ∧
      n.bare = x.regroup.node ∧ st'.Ready l c rest := by
  obtain ⟨n, st₁, done, ⟨spans, spans', v, rfl, tree⟩, ready₁⟩ := x.assignment_read enough allowed ready
  have kind : st₁.token.kind = .punct .semicolon := ready₁.kind_eq rfl
  obtain ⟨st₂, ended, ready₂⟩ := ready₁.eat (p := .semicolon) rfl
  have noComma : (st₁.token.kind == .punct .comma) = false := by
    rw [kind]
    rfl
  have canEnd : Read.canEnd st₁ = .ok true st₁ := by
    unfold Read.canEnd
    simp only [Read.token_bind, kind]
    rfl
  have finish : Read.endStatement st₁ = .ok () st₂ := by
    unfold Read.endStatement
    rw [Read.bind_ok canEnd]
    simp only [if_true]
    rw [Read.bind_ok ended]
    rfl
  have whole : Read.descend (d + 2) .expression st = .ok (.mk (.assign .plain) .value spans
      [.mk (.identifier x.target.text) .part spans' [], v]) st₁ := by
    change Read.expression (Read.descend (d + 1)) st = _
    unfold Read.expression
    simp only [Read.start_bind]
    rw [Read.bind_ok done]
    simp only [Read.isAt_bind, noComma, Bool.false_eq_true, if_false]
    rfl
  refine ⟨.mk .expressionStatement .part ⟨⟨st.token.start, st₂.lastStop⟩, []⟩
    [.mk (.assign .plain) .value spans [.mk (.identifier x.target.text) .part spans' [], v]], st₂, ?_, ?_,
    ready₂⟩
  · unfold Read.expressionStatement
    simp only [Read.start_bind]
    rw [Read.bind_ok whole]
    change (Read.endStatement >>= fun _ => Read.part .expressionStatement st.token.start _) st₁ = _
    rw [Read.bind_ok finish]
    rfl
  · rw [Node.bare_mk _ _ _ (by simp)]
    simp only [List.map_cons, List.map_nil]
    rw [Node.bare_mk _ _ _ (by simp)]
    simp only [List.map_cons, List.map_nil, tree]
    rfl

/-- A word that is no keyword begins no declaration. -/
theorem wordStatement_read (x : Line) {n : Node} {st' : ReadState input}
    (plain : st.language.typed = false) (kind : st.token.kind = .word x.target.text)
    (done : Read.expressionStatement (Read.descend (d + 2)) st = .ok n st') :
    Read.wordStatement (Read.descend (d + 2)) x.target.text false st = .ok n st' := by
  have other : ∀ w : String, (isReservedWord w || ["await", "yield", "async"].contains w) = true →
      (st.token.kind == .word w) = false := by
    intro w taken
    rw [kind]
    exact beq_false_of_ne fun same => x.target.text_ne taken (TokenKind.word.inj same)
  have function : Read.isFunctionKeyword st = .ok false st := by
    unfold Read.isFunctionKeyword
    simp only [Read.atWord_bind, other "function" (by decide), other "async" (by decide),
      Bool.false_eq_true, if_false]
    rfl
  have awaitUsing : Read.isAwaitUsing st = .ok false st := by
    unfold Read.isAwaitUsing
    simp only [Read.atWord_bind, other "await" (by decide)]
    rfl
  have using' : Read.isUsing false st = .ok false st := by
    have no : (st.token.kind == .word "using") = false := by
      rw [kind]
      exact beq_false_of_ne fun same => x.target_ne (by decide) (TokenKind.word.inj same)
    unfold Read.isUsing
    simp only [Read.atWord_bind, no]
    rfl
  have declaration : Read.isTypedDeclaration x.target.text st = .ok false st := by
    unfold Read.isTypedDeclaration
    simp only [Read.isTyped_bind, plain]
    rfl
  unfold Read.wordStatement
  simp only [Read.start_bind]
  refine (congrFun (?_ : _ = Read.nameStatement (Read.descend (d + 2)) x.target.text false) st).trans ?_
  · split <;> first
      | rfl
      | (rename_i same; exact absurd same (x.target.text_ne (by decide)))
      | (rename_i same; exact absurd same (x.target_ne (by decide)))
  · unfold Read.nameStatement
    simp only [Read.start_bind]
    rw [Read.bind_ok function]
    simp only [Bool.false_eq_true, if_false]
    rw [Read.bind_ok using']
    simp only [Bool.false_eq_true, if_false]
    rw [Read.bind_ok awaitUsing]
    simp only [Bool.false_eq_true, if_false]
    rw [Read.bind_ok declaration]
    exact done

theorem statement_read (x : Line) (enough : 4 * x.value.weight + 4 ≤ d) (plain : l.typed = false)
    (allowed : c.allowIn = true) (ready : st.Ready l c (x.toks ++ rest)) :
    ∃ n st', Read.descend (d + 3) (.statement false) st = .ok n st' ∧ n.bare = x.regroup.node ∧
      st'.Ready l c rest := by
  obtain ⟨n, st', done, tree, ready'⟩ := x.expressionStatement_read enough allowed ready
  refine ⟨n, st', ?_, tree, ready'⟩
  have kind : st.token.kind = .word x.target.text := ready.kind_eq rfl
  have typed : st.language.typed = false := by rw [ready.language, plain]
  change Read.statement (Read.descend (d + 2)) false st = _
  unfold Read.statement
  simp only [Read.token_bind, kind]
  rw [Read.bind_ok (x.wordStatement_read typed kind done)]
  simp only [ready.inert, Bool.false_eq_true, if_false]
  rfl

end Line

/-- The tokens of a program. -/
def linesToks (xs : List Line) : List Tok := xs.flatMap Line.toks

namespace Read

variable {l : Language} {c : Context} {d : Nat}

theorem asDirective_line {n : Node} {x : Line} (tree : n.bare = x.node) (source : List Char) :
    asDirective source n = none := by
  obtain ⟨spans, ds, rfl, parts⟩ := Node.part_of_bare tree (by simp)
  obtain ⟨a, rfl, value⟩ := List.map_eq_singleton_iff.mp parts
  obtain ⟨_, _, inner, -⟩ := Node.of_bare value (by simp)
  simp only [asDirective, Node.form, Node.children]
  split
  next v s string =>
    obtain ⟨form, place, spans, cs⟩ := a
    obtain rfl : form = .string v s := string
    rw [Node.withoutParens_mk place spans (Or.inl (by simp))] at inner
    cases inner
  · rfl

/-- The statements of a program, one after the other. -/
theorem nextStatements_read (xs : List Line) (enough : ∀ x ∈ xs, 4 * x.value.weight + 4 ≤ d)
    (plain : l.typed = false) (allowed : c.allowIn = true) (acc : List Node) (first : Bool) (n : Nat)
    (st : ReadState input) (ready : st.Ready l c (linesToks xs)) (bound : xs.length < n) :
    ∃ (ns : List Node) (first' : Bool) (st' : ReadState input),
      repeatFor (fun (acc, first) => nextStatement (descend (d + 3)) true acc first) n
          ((acc, first) : List Node × Bool) st = .ok (ns.reverse ++ acc, first') st' ∧
      ns.map Node.bare = xs.map (fun x => x.regroup.node) ∧ st'.Ready l c [] := by
  induction xs generalizing acc first n st with
  | nil =>
    obtain ⟨n, rfl⟩ : ∃ m, n = m + 1 := ⟨n - 1, by simp at bound; omega⟩
    refine ⟨[], first, st, repeatFor_done ?_ n, rfl, ready⟩
    simp only [nextStatement, kind_bind, ready.kind_nil]
    rfl
  | cons x xs ih =>
    obtain ⟨n, rfl⟩ : ∃ m, n = m + 1 := ⟨n - 1, by simp at bound; omega⟩
    rw [linesToks, List.flatMap_cons] at ready
    have kind : st.token.kind = .word x.target.text := ready.kind_eq rfl
    obtain ⟨m, st₁, done, tree, ready₁⟩ := x.statement_read (enough x (by simp)) plain allowed ready
    obtain ⟨ns, first', st₂, loop, trees, ready₂⟩ := ih (fun y inside => enough y (by simp [inside]))
      (m :: acc) false n st₁ ready₁ (by simp at bound; omega)
    refine ⟨m :: ns, first', st₂, ?_, by simp only [List.map_cons, tree, trees], ready₂⟩
    have step : nextStatement (descend (d + 3)) true acc first st = .ok (.more (m :: acc, false)) st₁ := by
      unfold nextStatement
      simp only [kind_bind, kind]
      change (descend (d + 3) (.statement false) >>= fun n => _) st = _
      rw [bind_ok done]
      cases first with
      | false => rfl
      | true =>
        simp only [if_true, get_bind]
        rw [asDirective_line (x := x.regroup) tree]
        rfl
    rw [repeatFor_more (b := (m :: acc, false)) step, loop]
    simp

end Read


/-! ## Whole texts -/

/-- At the start of a layout the first token is next. -/
theorem ReadState.Ready.initial {l : Language} {ts : List Tok} {cs : List Char}
    (angles : l.typed = true → ∀ t ∈ ts, t.isAngle = false) (laid : Laid ts cs) :
    (ReadState.initial l cs).Ready l { inAsync := !l.script, ambient := l.definition } ts := by
  have none : ({} : Trivia).comments = [] := rfl
  cases ts with
  | nil =>
    obtain ⟨kind, rest, escaped, pure, inert, comments, faults, start, pos⟩ :=
      scanToken_end l.script laid cs.length 0 {} none true
    exact {
      language := rfl
      context := rfl
      tokenProblems := by simp [ReadState.initial, faults]
      problems := rfl
      defaults := rfl
      comments := comments
      escaped := escaped
      pure := pure
      inert := inert
      size := by
        simp only [ReadState.initial, rest, pos]
        simp
      angles := angles
      faces := .eof kind rest }
  | cons t ts =>
    have of := scanToken_laid l.script laid cs.length 0 {} none true
    exact {
      language := rfl
      context := rfl
      tokenProblems := by simp [ReadState.initial, of.problems]
      problems := rfl
      defaults := rfl
      comments := of.comments
      escaped := of.escaped
      pure := of.pure
      inert := of.inert
      size := by
        simp only [ReadState.initial]
        simpa using of.stop
      angles := angles
      faces := of.faces rfl rfl rfl }

theorem exports_line {n : Node} {x : Line} (tree : n.bare = x.node) :
    exportedNames n = [] ∧ isDefaultExport n = false := by
  obtain ⟨spans, ds, rfl, -⟩ := Node.part_of_bare tree (by simp)
  exact ⟨rfl, rfl⟩

theorem exportProblems_lines {ns : List Node} {xs : List Line}
    (trees : ns.map Node.bare = xs.map Line.node) : exportProblems ns = [] := by
  have each : ∀ n ∈ ns, exportedNames n = [] ∧ isDefaultExport n = false := by
    intro n inside
    have image : n.bare ∈ xs.map Line.node := by
      rw [← trees]
      exact List.mem_map_of_mem inside
    obtain ⟨x, -, same⟩ := List.mem_map.mp image
    exact exports_line same.symm
  have names : ns.flatMap exportedNames = [] :=
    List.flatMap_eq_nil_iff.mpr fun n inside => (each n inside).1
  have defaults : ns.filter isDefaultExport = [] :=
    List.filter_eq_nil_iff.mpr fun n inside => by simp [(each n inside).2]
  simp only [exportProblems, names, defaults]
  rfl

theorem Line.weight_le (x : Line) : x.value.weight ≤ x.toks.length := by
  have least := x.value.weight_le_length
  simp only [toks, List.length_cons, List.length_append]
  omega

theorem length_linesToks {x : Line} {xs : List Line} (inside : x ∈ xs) :
    x.toks.length ≤ (linesToks xs).length := by
  induction xs with
  | nil => cases inside
  | cons y ys ih =>
    rw [linesToks, List.flatMap_cons, List.length_append]
    rcases List.mem_cons.mp inside with rfl | later
    · omega
    · have rest := ih later
      rw [linesToks] at rest
      omega

theorem lines_le_toks (xs : List Line) : xs.length ≤ (linesToks xs).length := by
  induction xs with
  | nil => simp
  | cons x xs ih =>
    rw [linesToks] at *
    rw [List.flatMap_cons, List.length_append, List.length_cons]
    have some : 0 < x.toks.length := by simp [Line.toks]
    omega

/-- A program of lines is read to its end. -/
theorem program_read {l : Language} {c : Context} {st : ReadState input} {xs : List Line} {d : Nat}
    (plain : l.typed = false) (allowed : c.allowIn = true) (ready : st.Ready l c (linesToks xs))
    (enough : ∀ x ∈ xs, 4 * x.value.weight + 4 ≤ d) :
    ∃ ns spans st', Read.program (d + 3) st = .ok (.mk (.program none l.elements) .part spans ns) st' ∧
      ns.map Node.bare = xs.map (fun x => x.regroup.node) ∧ st'.Ready l c [] := by
  have bound : xs.length < st.size - st.token.start + 2 := by
    have left := ready.length_le
    have least := lines_le_toks xs
    omega
  obtain ⟨ns, first, st', loop, trees, ready'⟩ := Read.nextStatements_read xs enough plain allowed
    [] true _ st ready bound
  refine ⟨ns, ⟨⟨0, st'.size⟩, []⟩, st', ?_, trees, ready'⟩
  have items : Read.statements (Read.descend (d + 3)) true st = .ok ns st' := by
    unfold Read.statements
    rw [Read.bind_apply, Read.iterate_apply, loop]
    simp
  unfold Read.program
  simp only [Read.token_bind]
  cases xs with
  | nil =>
    simp only [ready.kind_nil, Read.pure_bind_apply]
    rw [Read.bind_ok items]
    rw [← ready'.language]
    rfl
  | cons x xs =>
    have kind : st.token.kind = .word x.target.text := ready.kind_eq rfl
    simp only [kind, Read.pure_bind_apply]
    rw [Read.bind_ok items]
    rw [← ready'.language]
    rfl

/-- A text that spells a program of lines is read as the program. -/
theorem parse_lines {l : Language} (plain : l.typed = false)
    {xs : List Line} {cs : List Char} (laid : Laid (linesToks xs) cs) :
    ∃ p, parse l (String.ofList cs) = .ok p ∧
      p.tree.bare = linesNode l.elements (xs.map Line.regroup) ∧ p.comments = [] := by
  obtain ⟨text, rfl⟩ : ∃ text : String, cs = text.toList :=
    ⟨String.ofList cs, String.toList_ofList.symm⟩
  have ready := ReadState.Ready.initial (l := l) (by simp [plain]) laid
  have length := laid.length_le
  have enough : ∀ x ∈ xs, 4 * x.value.weight + 4 ≤ 16 * (text.toList.length + 1) + 61 := by
    intro x inside
    have least := x.weight_le
    have part := length_linesToks inside
    omega
  obtain ⟨ns, spans, st, done, trees, ready'⟩ := program_read plain rfl ready enough
  have sound : st.faults [] [] = [] := by
    simp [ReadState.faults, ready'.tokenProblems, ready'.problems, ready'.defaults]
  have exports : exportProblems ns = [] := by
    have image : ns.map Node.bare = (xs.map Line.regroup).map Line.node := by
      rw [trees, List.map_map]
      rfl
    exact exportProblems_lines image
  refine ⟨⟨.mk (.program none l.elements) .part spans ns, []⟩, ?_, ?_, rfl⟩
  · rw [String.ofList_toList]
    unfold parse
    simp only [done]
    simp only [plain, Bool.false_eq_true, if_false, Node.children, exports, sound, ready'.comments]
    rfl
  · rw [Node.bare_mk _ _ _ (by simp), trees, linesNode, List.map_map]
    rfl

/-! ## Printing -/

namespace Node

theorem innermost_withoutParens (n : Node) : n.withoutParens.innermost = n.innermost := by
  induction n using parens_induct with
  | plain form place spans cs plain => rw [withoutParens_mk place spans plain]
  | parens place spans c cs ih =>
    rw [withoutParens_parens, ih]
    simp only [innermost, innermostAt]

end Node

namespace Emit

variable {o : Out} {e : Emit} {cs : List Char}

theorem commentsAt_apply (pos : Nat) (calm : o.Calm) : commentsAt pos o = ((), o) := by
  have none : takeComments pos o = ([], o) := by
    unfold takeComments
    rw [get_bind, calm.comments]
    rfl
  change printComments (takeComments pos o).1 (takeComments pos o).2 = _
  rw [none]
  rfl

theorem owedSemicolon_apply (calm : o.Calm) : owedSemicolon o = ((), o) := by
  have step : owedSemicolon o =
      (if o.owesSemicolon then (semicolon >>= fun _ => settled : Emit) else pure ()) o := rfl
  rw [step, calm.semicolon]
  rfl

theorem indent_apply (calm : o.Calm) : indent o = ((), o) := by
  have step : indent o = (if o.minify then (pure () : Emit)
    else if o.indentAsSpace then (space >>= fun _ => modify fun o => { o with indentAsSpace := false })
    else chars (List.replicate o.indent '\t')) o := rfl
  rw [step, calm.minify, calm.ownLine, calm.indent]
  rfl

theorem Writes.endStatement (calm : o.Calm) : Emit.Writes endStatement o [';', '\n'] := by
  have step : Emit.endStatement o = (if o.minify then
    (modify fun o => { o with owesSemicolon := true } : Emit) else Emit.text ";\n") o := rfl
  unfold Writes
  rw [step, calm.minify]
  exact Writes.text calm ";\n"

end Emit

namespace Print

open Emit

variable {o : Out}

theorem assign_writes {target v : Node} {x : Line}
    (name : target.bare = .mk (.identifier x.target.text) .part ⟨⟨0, 0⟩, []⟩ [])
    (tree : v.bare = x.value.node) (calm : o.Calm)
    (apart : ∀ c ∈ o.text.head?, NameChar.isPart c = false) :
    Emit.Writes (assign .plain target.piece v.piece {}) o
      (x.target.text.toList ++ ' ' :: '=' :: ' ' :: x.value.text none) := by
  obtain ⟨spans, ds, rfl, -⟩ := Node.part_of_bare name (by simp)
  have word := Writes.word calm apart x.target.text
  have step : assign .plain (Node.mk (.identifier x.target.text) .part spans ds).piece v.piece {} o =
      (Emit.word x.target.text >>= fun _ => softSpace >>= fun _ => text "=" >>= fun _ =>
        softSpace >>= fun _ => v.piece.item) o := rfl
  unfold Writes
  rw [step]
  refine word.seq fun o₁ calm₁ _ => Writes.spaceSeq calm₁ fun o₂ calm₂ _ _ => ?_
  have mark : Emit.Writes (text "=") o₂ ['='] := Writes.text calm₂ "="
  refine mark.seq fun o₃ calm₃ _ =>
    Writes.spaceSeq calm₃ fun o₄ calm₄ text₄ before₄ => ?_
  exact (x.value.prints v tree).loose (by decide) rfl rfl calm₄ (.afterChar text₄ before₄ (by decide))

theorem statement_writes {n : Node} {x : Line} (tree : n.bare = x.node) (calm : o.Calm)
    (apart : ∀ c ∈ o.text.head?, NameChar.isPart c = false) :
    Emit.Writes (statement n.piece {}) o x.text := by
  obtain ⟨spans, ds, rfl, parts⟩ := Node.part_of_bare tree (by simp)
  obtain ⟨a, rfl, value⟩ := List.map_eq_singleton_iff.mp parts
  obtain ⟨inside, es, inner, sides⟩ := Node.of_bare value (by simp)
  obtain ⟨target, v, rfl, name, term⟩ := Node.two_of_bare sides
  have ending : endingOf (Node.mk .expressionStatement .part spans [a]) = .semicolon := by
    have other : isLet a = false := by
      unfold isLet
      rw [← a.innermost_withoutParens, inner]
      rfl
    change (if isLet a then Ending.mark else .semicolon) = _
    rw [other]
    rfl
  -- Neither comments nor marks come before the statement, and it stands at the start of a line.
  have step : statement (Node.mk .expressionStatement .part spans [a]).piece {} o =
      (expressionStatement a.piece >>= fun _ => finish .semicolon) o := by
    have start : statement (Node.mk .expressionStatement .part spans [a]).piece {} o =
        (commentsAt spans.own.start >>= fun _ => indent >>= fun _ => expressionStatement a.piece >>=
          fun _ => finish (endingOf (Node.mk .expressionStatement .part spans [a]))) o := rfl
    rw [start, ending]
    change (indent >>= fun _ => expressionStatement a.piece >>= fun _ => finish .semicolon)
      (commentsAt spans.own.start o).2 = _
    rw [commentsAt_apply _ calm]
    change (expressionStatement a.piece >>= fun _ => finish .semicolon) (indent o).2 = _
    rw [indent_apply calm]
  have body : Emit.Writes (expressionStatement a.piece) o
      (x.target.text.toList ++ ' ' :: '=' :: ' ' :: x.value.text none) := by
    have calm' : ({ o with statementStart := o.size } : Out).Calm := { calm with }
    have written := assign_writes name term calm' apart
    have same : a.piece.plain = assign .plain target.piece v.piece {} := by
      change a.piece.emit {} = _
      rw [a.emit_withoutParens, inner]
      rfl
    unfold Writes expressionStatement
    change (a.piece.plain { o with statementStart := o.size }).2.Calm ∧
      (a.piece.plain { o with statementStart := o.size }).2.text = _
    rw [same]
    exact written
  have whole := body.seq fun o₁ calm₁ _ => Writes.endStatement calm₁
  unfold Writes
  rw [step]
  simp only [List.append_assoc, List.cons_append] at whole
  exact whole

/-- The text of a program. -/
theorem statementList_writes {ns : List Node} {xs : List Line}
    (trees : ns.map Node.bare = xs.map Line.node) (calm : o.Calm)
    (apart : ∀ c ∈ o.text.head?, NameChar.isPart c = false) :
    Emit.Writes (statementList (Node.pieces ns) {}) o (xs.flatMap Line.text) := by
  induction ns generalizing xs o with
  | nil =>
    cases xs with
    | cons x xs => cases trees
    | nil => exact ⟨calm, rfl⟩
  | cons n ns ih =>
    cases xs with
    | nil => cases trees
    | cons x xs =>
      rw [List.map_cons, List.map_cons, List.cons.injEq] at trees
      have step : statementList (Node.pieces (n :: ns)) {} o =
          (owedSemicolon >>= fun _ => statement n.piece {} >>= fun _ =>
            statementList (Node.pieces ns) {}) o := rfl
      have same : (owedSemicolon >>= fun _ => statement n.piece {} >>= fun _ =>
            statementList (Node.pieces ns) {}) o =
          (statement n.piece {} >>= fun _ => statementList (Node.pieces ns) {}) o := by
        change (statement n.piece {} >>= fun _ => statementList (Node.pieces ns) {})
          (owedSemicolon o).2 = _
        rw [owedSemicolon_apply calm]
      rw [List.flatMap_cons]
      unfold Writes
      rw [step, same]
      refine (statement_writes trees.1 calm apart).seq fun o' calm' text => ?_
      refine ih trees.2 calm' ?_
      intro c last
      rw [text, Line.text] at last
      simp only [List.reverse_append, List.reverse_cons, List.cons_append, List.append_assoc,
        List.nil_append, List.reverse_nil, List.head?_cons, Option.mem_some_iff] at last
      rw [← last]
      decide

/-- A line is neither a directive nor a string that could be taken for one. -/
theorem directivesAndStatements_lines {ns : List Node} {xs : List Line}
    (trees : ns.map Node.bare = xs.map Line.node) :
    directivesAndStatements (Node.pieces ns) {} o = statementList (Node.pieces ns) {} o := by
  cases ns with
  | nil => rfl
  | cons n ns =>
    cases xs with
    | nil => cases trees
    | cons x xs =>
      rw [List.map_cons, List.map_cons, List.cons.injEq] at trees
      obtain ⟨spans, ds, rfl, parts⟩ := Node.part_of_bare trees.1 (by simp)
      obtain ⟨a, rfl, value⟩ := List.map_eq_singleton_iff.mp parts
      obtain ⟨inside, es, inner, -⟩ := Node.of_bare value (by simp)
      have bare : bareString (Node.mk .expressionStatement .part spans [a]).piece = none := by
        have form : a.piece.tree.withoutParens.form = .assign .plain := by
          rw [a.piece_tree, inner]
          rfl
        unfold bareString
        split
        next e _ parts =>
          obtain ⟨rfl, -⟩ := List.cons.inj parts
          rw [form]
        · rfl
      have step : directivesAndStatements
          (Node.pieces (Node.mk .expressionStatement .part spans [a] :: ns)) {} o =
          openingStatements false
            (Node.pieces (Node.mk .expressionStatement .part spans [a] :: ns)) {} o := rfl
      rw [step]
      simp only [openingStatements, Node.pieces, bare]
      rfl

end Print

/-- A program of lines prints as the text of the lines, whatever parentheses its tree has. -/
theorem Node.print_lines {n : Node} {elements : Bool} {xs : List Line}
    (tree : n.bare = linesNode elements xs) :
    n.print [] false = String.ofList (xs.flatMap Line.text) := by
  obtain ⟨spans, ns, rfl, trees⟩ := part_of_bare tree (by simp)
  have calm : ({ elements } : Out).Calm := by constructor <;> simp
  have apart : ∀ c ∈ ({ elements } : Out).text.head?, NameChar.isPart c = false := by
    intro c first
    cases first
  obtain ⟨calm', text⟩ := Print.statementList_writes trees calm apart
  have step : (mk (.program none elements) .part spans ns).piece.plain {} =
      (Emit.commentsAt 0 >>= fun _ => Print.directivesAndStatements (Node.pieces ns) {} >>= fun _ =>
        Emit.owedSemicolon >>= fun _ => Emit.commentsAt spans.own.stop) { elements } := rfl
  have run : (mk (.program none elements) .part spans ns).piece.plain {} =
      Print.statementList (Node.pieces ns) {} { elements } := by
    rw [step]
    change (Print.directivesAndStatements (Node.pieces ns) {} >>= fun _ =>
      Emit.owedSemicolon >>= fun _ => Emit.commentsAt spans.own.stop) (Emit.commentsAt 0 { elements }).2 = _
    rw [Emit.commentsAt_apply 0 calm]
    change (Emit.owedSemicolon >>= fun _ => Emit.commentsAt spans.own.stop)
      (Print.directivesAndStatements (Node.pieces ns) {} { elements }).2 = _
    rw [Print.directivesAndStatements_lines trees]
    change Emit.commentsAt spans.own.stop (Emit.owedSemicolon _).2 = _
    rw [Emit.owedSemicolon_apply calm', Emit.commentsAt_apply _ calm']
    rfl
  change String.ofList ((mk (.program none elements) .part spans ns).piece.plain {}).2.text.reverse = _
  rw [run, text]
  simp

/-- The text of lines spells the tokens of the lines. -/
theorem linesText_laid (xs : List Line) : Laid (linesToks xs) (xs.flatMap Line.text) := by
  induction xs with
  | nil => exact .done rfl
  | cons x xs ih =>
    have newline : Laid (linesToks xs) ('\n' :: xs.flatMap Line.text) := by
      have blank : ['\n'].all isGapChar = true := by decide
      exact ih.gap blank
    have semicolon := newline.mark .semicolon fun c => rfl
    have value := x.value.text_spells none semicolon (endsWord_cons (by decide) (by decide) _)
    have equals := value.space.tok (Tok.apart_space (.mark .eq) _)
    have target := equals.space.word x.target.toWord (endsWord_cons (by decide) (by decide) _)
    simp only [linesToks, List.flatMap_cons, Line.toks, Line.text, List.cons_append,
      List.append_assoc, List.nil_append] at target ⊢
    exact target

/-- What is printed for a program of lines is read back as the program. -/
theorem Node.parse_print_lines {n : Node} {l : Language} {xs : List Line} (plain : l.typed = false)
    (tree : n.bare = linesNode l.elements xs) :
    ∃ p, parse l (n.print [] false) = .ok p ∧
      p.tree.bare = linesNode l.elements (xs.map Line.regroup) ∧ p.comments = [] := by
  rw [print_lines tree]
  exact parse_lines plain (linesText_laid xs)

end Splice
