import Splice.Grammar.Program
import Splice.Proofs.Layout

/-!
# Reading tokens one by one

What a reader does is computed from the state it starts in. A state is ready for a list of tokens if
it has met no fault so far, and the current token and the text after it are a layout of the list.
-/
namespace Splice

variable {input : Source}

namespace Read

/-! ## Running readers -/

section Running

variable {α β : Type} (s : ReadState input)

@[simp] theorem pure_apply (a : α) : (pure a : Read α) s = .ok a s := rfl

theorem bind_apply (r : Read α) (f : α → Read β) :
    (r >>= f) s = match r s with
      | .ok a s' => f a s'
      | .error p s' => .error p s' := by
  change EStateM.bind r f s = _
  unfold EStateM.bind
  cases r s <;> rfl

/-- After a reader that succeeds the next one goes on. -/
theorem bind_ok {r : Read α} {s s' : ReadState input} {a : α} (read : r s = .ok a s') (f : α → Read β) :
    (r >>= f) s = f a s' := by
  rw [bind_apply, read]

/-- A run of two readers, one after the other, is a run of each. -/
theorem bind_inv {s u : ReadState input} {r : Read α} {f : α → Read β} {b : β}
    (read : (r >>= f) s = .ok b u) : ∃ a t, r s = .ok a t ∧ f a t = .ok b u := by
  rw [bind_apply] at read
  split at read
  next a t first => exact ⟨a, t, first, read⟩
  next => cases read

theorem pure_inv {s t : ReadState input} {a b : α} (read : (pure a : Read α) s = .ok b t) :
    b = a ∧ t = s := by
  cases read
  exact ⟨rfl, rfl⟩

@[simp] theorem get_bind (f : ReadState input → Read β) : (get >>= f) s = f s s := rfl

@[simp] theorem modify_bind (g : ReadState input → ReadState input) (f : Unit → Read β) :
    ((modify g : Read Unit) >>= f) s = f () (g s) := rfl

@[simp] theorem pure_bind_apply (a : α) (f : α → Read β) : ((pure a : Read α) >>= f) s = f a s := rfl

@[simp] theorem token_bind (f : Token → Read β) : (token >>= f) s = f s.token s := rfl

@[simp] theorem kind_bind (f : TokenKind → Read β) : (kind >>= f) s = f s.token.kind s := rfl

@[simp] theorem start_bind (f : Nat → Read β) : (start >>= f) s = f s.token.start s := rfl

@[simp] theorem isFresh_bind (f : Bool → Read β) : (isFresh >>= f) s = f s.token.fresh s := rfl

@[simp] theorem language_bind (f : Language → Read β) : (language >>= f) s = f s.language s := rfl

@[simp] theorem isTyped_bind (f : Bool → Read β) : (isTyped >>= f) s = f s.language.typed s := rfl

@[simp] theorem context_bind (f : Context → Read β) : (context >>= f) s = f s.context s := rfl

@[simp] theorem isAt_bind (p : Punct) (f : Bool → Read β) :
    (isAt p >>= f) s = f (s.token.kind == .punct p) s := rfl

@[simp] theorem atWord_bind (w : String) (f : Bool → Read β) :
    (atWord w >>= f) s = f (s.token.kind == .word w) s := rfl

theorem value_apply (form : Form) (start : Nat) (children : List Node) (pieces : List Span) :
    value form start children pieces s =
      .ok (.mk form .value ⟨⟨start, s.lastStop⟩, pieces⟩ children) s := rfl

/-- A reader in another context gives what it gives there. -/
theorem within_ok {f : Context → Context} {r : Read α} {s s' : ReadState input} {a : α}
    (read : r { s with context := f s.context } = .ok a s') :
    within f r s = .ok a { s' with context := s.context } := by
  unfold within
  simp only [context_bind, modify_bind]
  rw [bind_ok read]
  rfl

theorem iterate_apply (init : α) (step : α → Read (Step α)) :
    iterate init step s = repeatFor step (s.size - s.token.start + 2) init s := rfl

theorem repeatFor_more {step : α → Read (Step α)} {s s' : ReadState input} {a b : α}
    (read : step a s = .ok (.more b) s') (n : Nat) :
    repeatFor step (n + 1) a s = repeatFor step n b s' := by
  rw [repeatFor, bind_ok read]

theorem repeatFor_done {step : α → Read (Step α)} {s s' : ReadState input} {a b : α}
    (read : step a s = .ok (.done b) s') (n : Nat) : repeatFor step (n + 1) a s = .ok b s' := by
  rw [repeatFor, bind_ok read]
  rfl

end Running

end Read

/-! ## Ready states -/

/-- The current token and the text after it spell the tokens. A mark that begins with a closing
angle bracket may have been read only in part. -/
inductive ReadState.Faces (s : ReadState input) : List Tok → Prop where
  | eof : s.token.kind = .eof → s.rest = [] → s.Faces []
  | whole {t : Tok} {ts : List Tok} : s.token.kind = t.kind → Laid ts s.rest →
    t.apart s.rest = true → s.pos = s.token.start + t.chars.length → s.Faces (t :: ts)
  | half {p : Punct} {cs : List Char} {ts : List Tok} : p.late ≠ [] → s.token.kind = .punct .gt →
    s.rest = p.late ++ cs → Laid ts cs → (Tok.mark p).apart cs = true →
    s.pos = s.token.start + 1 → s.Faces (.mark p :: ts)

/-- A mark that may open type arguments in typed sources. -/
def Tok.isAngle : Tok → Bool
  | mark p => [.lt, .shl, .shlEq].contains p
  | word _ => false

/-- A state without faults that faces the tokens. -/
structure ReadState.Ready (s : ReadState input) (l : Language) (c : Context) (ts : List Tok) :
    Prop where
  language : s.language = l
  context : s.context = c
  tokenProblems : s.tokenProblems = []
  problems : s.problems = []
  defaults : s.defaults = []
  comments : s.trivia.comments = []
  escaped : s.token.escaped = false
  pure : s.token.pure = false
  inert : s.token.inert = false
  size : s.pos + s.rest.length = s.size
  angles : l.typed = true → ∀ t ∈ ts, t.isAngle = false
  faces : s.Faces ts

/-- What a state faces depends on the current token and the text after it only. -/
theorem ReadState.Faces.congr {s s' : ReadState input} {ts : List Tok} (faces : s.Faces ts)
    (token : s'.token = s.token) (rest : s'.rest = s.rest) (pos : s'.pos = s.pos) :
    s'.Faces ts := by
  cases faces with
  | eof kind none => exact .eof (by rw [token, kind]) (by rw [rest, none])
  | whole kind laid apart place =>
    exact .whole (by rw [token, kind]) (by rw [rest]; exact laid) (by rw [rest]; exact apart)
      (by rw [pos, token, place])
  | half late kind behind laid apart place =>
    exact .half late (by rw [token, kind]) (by rw [rest, behind]) laid apart
      (by rw [pos, token, place])

theorem Punct.length_late {p : Punct} (late : p.late ≠ []) :
    p.text.toList.length = 1 + p.late.length ∧ p.first = .gt := by
  cases p <;> simp_all [Punct.late, Punct.text, Punct.first]

/-- What has been scanned from a layout faces the tokens of the layout. -/
theorem Scanned.Of.faces {r : Scanned} {t : Tok} {ts : List Tok} {stop : Nat} (of : r.Of t ts stop)
    {s : ReadState input} (token : s.token = r.token) (rest : s.rest = r.rest) (pos : s.pos = r.pos) :
    s.Faces (t :: ts) := by
  obtain ⟨cs, next, apart, behind⟩ := of.rest
  have start := of.start
  have kind := of.kind
  rw [← token] at kind start
  rw [← rest] at behind
  rw [← pos] at start
  by_cases simple : t.late = []
  · rw [simple, List.nil_append] at behind
    rw [simple, List.length_nil, Nat.sub_zero] at start
    have plain : t.firstKind = t.kind := by
      cases t with
      | word w => rfl
      | mark p => cases p <;> simp_all [Tok.late, Punct.late, Tok.firstKind, Tok.kind, Punct.first]
    exact .whole (kind.trans plain) (by rw [behind]; exact next) (by rw [behind]; exact apart) start
  · cases t with
    | word w => exact absurd rfl simple
    | mark p =>
      obtain ⟨length, first⟩ := Punct.length_late simple
      refine .half simple ?_ behind next apart ?_
      · rw [kind, Tok.firstKind, first]
      · rw [start, Tok.chars, Tok.late, length]
        omega

namespace ReadState.Ready

variable {s : ReadState input} {l : Language} {c : Context} {t : Tok} {ts : List Tok}

/-- There are at least as many characters left as tokens. -/
theorem length_le (ready : s.Ready l c ts) : ts.length ≤ s.size - s.token.start := by
  have size := ready.size
  cases ready.faces with
  | eof => simp
  | @whole t ts _ laid _ pos =>
    have some : 0 < t.chars.length := List.length_pos_iff.mpr t.chars_ne_nil
    have bound := laid.length_le
    simp only [List.length_cons]
    omega
  | @half p cs ts late _ rest laid _ pos =>
    have bound := laid.length_le
    simp only [rest, List.length_append, List.length_cons] at size ⊢
    omega

theorem kind_nil (ready : s.Ready l c []) : s.token.kind = .eof := by
  cases ready.faces with
  | eof kind _ => exact kind

/-- The kind of the current token, or of the part of it that has been read. -/
theorem kind_cases (ready : s.Ready l c (t :: ts)) :
    s.token.kind = t.kind ∨ t.late ≠ [] ∧ s.token.kind = .punct .gt := by
  cases ready.faces with
  | whole kind => exact Or.inl kind
  | half late kind => exact Or.inr ⟨late, kind⟩

theorem kind_eq (ready : s.Ready l c (t :: ts)) (simple : t.late = []) :
    s.token.kind = t.kind := by
  rcases ready.kind_cases with whole | ⟨late, -⟩
  · exact whole
  · exact absurd simple late

/-! ## Moving -/

/-- Putting in what a layout gives makes a state ready for the tokens of the layout. -/
theorem accept {cs : List Char} (ready : s.Ready l c (t :: ts)) (laid : Laid ts cs)
    {r : Scanned} (rest : s.rest = cs)
    (scanned : r = scanToken s.language.script (s.size - s.pos) s.rest s.pos s.trivia false)
    (old : ReadState input) (same : old.language = s.language ∧ old.context = s.context ∧
      old.tokenProblems = [] ∧ old.problems = [] ∧ old.defaults = [] ∧ old.size = s.size)
    {placed : Placed old.source r.token r.rest r.pos} : (Read.accept old r placed).Ready l c ts := by
  obtain ⟨sameLanguage, sameContext, tokenProblems, problems, defaults, sameSize⟩ := same
  subst rest
  have size := ready.size
  cases ts with
  | nil =>
    obtain ⟨kind, rest, escaped, pure, inert, comments, faults, start, pos⟩ :=
      scanToken_end s.language.script laid (s.size - s.pos) s.pos s.trivia ready.comments false
    rw [← scanned] at kind rest escaped pure inert comments faults start pos
    exact {
      language := sameLanguage.trans ready.language
      context := sameContext.trans ready.context
      tokenProblems := by simp [Read.accept, faults, tokenProblems]
      problems := problems
      defaults := defaults
      comments := comments
      escaped := escaped
      pure := pure
      inert := inert
      size := by
        simp only [Read.accept, rest, pos, sameSize, List.length_nil]
        exact size
      angles := fun typed u inside => ready.angles typed u (List.mem_cons_of_mem t inside)
      faces := .eof kind rest }
  | cons u us =>
    have of := scanToken_laid s.language.script laid (s.size - s.pos) s.pos s.trivia ready.comments false
    rw [← scanned] at of
    exact {
      language := sameLanguage.trans ready.language
      context := sameContext.trans ready.context
      tokenProblems := by simp [Read.accept, of.problems, tokenProblems]
      problems := problems
      defaults := defaults
      comments := of.comments
      escaped := of.escaped
      pure := of.pure
      inert := of.inert
      size := by
        simp only [Read.accept, sameSize]
        exact of.stop.trans size
      angles := fun typed u inside => ready.angles typed u (List.mem_cons_of_mem t inside)
      faces := of.faces rfl rfl rfl }

theorem advance (ready : s.Ready l c (t :: ts)) (whole : s.token.kind = t.kind) :
    (Read.advance s).Ready l c ts := by
  cases ready.faces with
  | whole _ laid _ _ =>
    exact ready.accept laid rfl rfl { s with lastStop := s.token.stop, opened := _ }
      ⟨rfl, rfl, ready.tokenProblems, ready.problems, ready.defaults, rfl⟩
  | half late kind =>
    rw [kind, Tok.kind, TokenKind.punct.injEq] at whole
    subst whole
    exact absurd rfl late

theorem bumpName (ready : s.Ready l c (t :: ts)) (whole : s.token.kind = t.kind) :
    ∃ s', Read.bumpName s = .ok () s' ∧ s'.Ready l c ts :=
  ⟨_, rfl, ready.advance whole⟩

theorem bump (ready : s.Ready l c (t :: ts)) (whole : s.token.kind = t.kind) :
    ∃ s', Read.bump s = .ok () s' ∧ s'.Ready l c ts := by
  refine ⟨Read.advance s, ?_, ready.advance whole⟩
  unfold Read.bump
  simp only [Read.token_bind, ready.escaped, Bool.false_and, Bool.false_eq_true, if_false]
  cases s.token.kind <;> rfl

/-- A mark that is expected and there. -/
theorem expect {p : Punct} (ready : s.Ready l c (.mark p :: ts)) (simple : p.late = []) :
    ∃ s', Read.expect p s = .ok () s' ∧ s'.Ready l c ts := by
  have kind := ready.kind_eq (t := .mark p) simple
  obtain ⟨s', bumped, ready'⟩ := ready.bump kind
  refine ⟨s', ?_, ready'⟩
  unfold Read.expect
  simp only [Read.isAt_bind, kind, Tok.kind, beq_self_eq_true, if_true]
  exact bumped

/-- A mark that is there is taken. -/
theorem eat {p : Punct} (ready : s.Ready l c (.mark p :: ts)) (simple : p.late = []) :
    ∃ s', Read.eat p s = .ok true s' ∧ s'.Ready l c ts := by
  have kind := ready.kind_eq (t := .mark p) simple
  obtain ⟨s', bumped, ready'⟩ := ready.bump kind
  refine ⟨s', ?_, ready'⟩
  unfold Read.eat
  simp only [Read.isAt_bind, kind, Tok.kind, beq_self_eq_true, if_true]
  rw [Read.bind_ok bumped]
  rfl

end ReadState.Ready

/-- A mark that is not there is not taken. -/
theorem Read.eat_other {s : ReadState input} {p : Punct} (other : (s.token.kind == .punct p) = false) :
    Read.eat p s = .ok false s := by
  unfold Read.eat
  simp only [Read.isAt_bind, other, Bool.false_eq_true, if_false]
  rfl

namespace ReadState.Ready

variable {s : ReadState input} {l : Language} {c : Context} {t : Tok} {ts : List Tok}

theorem joinAngle_late {p : Punct} (first : p.first = .gt) {cs : List Char}
    (apart : (Tok.mark p).apart cs = true) :
    joinAngle (p.late ++ cs) = (p, cs, p.text.toList.length) := by
  cases cs with
  | nil => cases p <;> simp_all [Punct.first, Punct.late, joinAngle, Punct.text]
  | cons c cs =>
    cases p <;>
      simp_all [Punct.first, Punct.late, joinAngle, Punct.text, Tok.apart, Tok.clash, Punct.clash]

/-- Joining makes the current token whole. -/
theorem joinMark (ready : s.Ready l c (t :: ts)) :
    ∃ s', Read.joinMark s = .ok () s' ∧ s'.Ready l c (t :: ts) ∧
      s'.token.kind = t.kind := by
  have size := ready.size
  cases ready.faces with
  | whole kind laid apart pos =>
    by_cases angle : s.token.kind = .punct .gt
    · have gt : t = .mark .gt := by
        cases t with
        | word w => simp [angle, Tok.kind] at kind
        | mark p => rw [angle, Tok.kind, TokenKind.punct.injEq] at kind; rw [kind]
      subst gt
      have join := joinAngle_late (p := .gt) rfl apart
      simp only [Punct.late, List.nil_append] at join
      refine ⟨_, rfl, ?_, ?_⟩
      · simp only [Read.joined, angle, join]
        refine { ready with size := ?_, faces := ?_ }
        · rw [← size, pos]
          rfl
        · exact .whole rfl laid apart rfl
      · simp only [Read.joined, angle, join]
        rfl
    · refine ⟨s, ?_, ready, kind⟩
      have same : Read.joined s = s := by
        unfold Read.joined
        split
        next is => exact absurd is angle
        · rfl
      exact congrArg (EStateM.Result.ok ()) same
  | @half p cs ts late kind rest laid apart pos =>
    obtain ⟨length, first⟩ := Punct.length_late late
    have join := joinAngle_late first apart
    rw [← rest] at join
    refine ⟨_, rfl, ?_, ?_⟩
    · simp only [Read.joined, kind, join]
      refine { ready with size := ?_, faces := ?_ }
      · change s.token.start + p.text.toList.length + cs.length = s.size
        rw [rest, List.length_append] at size
        omega
      · exact .whole rfl laid apart rfl
    · simp only [Read.joined, kind, join]
      rfl

/-! ## Surroundings -/

/-- The same state in another context. -/
theorem recontext (ready : s.Ready l c ts) (c' : Context) :
    ({ s with context := c' } : ReadState input).Ready l c' ts :=
  { ready with context := rfl, faces := ready.faces.congr rfl rfl rfl }

/-- The same state with another number of open brackets. -/
theorem reopen (ready : s.Ready l c ts) (opened : Nat) :
    ({ s with opened } : ReadState input).Ready l c ts :=
  { ready with faces := ready.faces.congr rfl rfl rfl }

/-- Stepping back to a ready state. -/
theorem restore {s' : ReadState input} (ready : s.Ready l c ts) (comments : s'.trivia.comments = [])
    (defaults : s'.defaults = []) : (Read.restore s s').Ready l c ts :=
  { ready with
    comments := comments
    defaults := defaults
    faces := ready.faces.congr rfl rfl rfl }

/-- What a reader does in another context is done, and the context is the old one again. -/
theorem within {α : Type} {u : List Tok} {f : Context → Context} {r : Read α} {P : α → Prop}
    (ready : s.Ready l c ts)
    (read : ∀ s' : ReadState input, s'.Ready l (f c) ts →
      ∃ a s'', r s' = .ok a s'' ∧ P a ∧ s''.Ready l (f c) u) :
    ∃ a s', Read.within f r s = .ok a s' ∧ P a ∧ s'.Ready l c u := by
  obtain ⟨a, s'', done, result, ready'⟩ := read _ (ready.recontext (f c))
  refine ⟨a, { s'' with context := c }, ?_, result, ready'.recontext c⟩
  rw [← ready.context] at done ⊢
  exact Read.within_ok done

/-- What a reader does before a mark is done. -/
theorem beforeMark {α : Type} {u : List Tok} {r : Read α} {P : α → Prop} (ready : s.Ready l c ts)
    (read : ∀ s' : ReadState input, s'.Ready l c ts → ∃ a s'', r s' = .ok a s'' ∧ P a ∧ s''.Ready l c u) :
    ∃ a s', Read.beforeMark r s = .ok a s' ∧ P a ∧ s'.Ready l c u := by
  obtain ⟨a, s', done, result, ready'⟩ := read _ (ready.reopen (s.opened + 1))
  refine ⟨a, { s' with opened := s'.opened - 1 }, ?_, result, ready'.reopen _⟩
  unfold Read.beforeMark
  simp only [Read.modify_bind]
  rw [Read.bind_ok done]
  rfl

/-- What is seen ahead of a ready state leaves it ready. -/
theorem lookahead {α : Type} {u : List Tok} {r : Read α} {a : α} (default : α) {s' : ReadState input}
    (ready : s.Ready l c ts) (read : r s = .ok a s') (ahead : s'.Ready l c u) :
    ∃ s'', Read.lookahead default r s = .ok a s'' ∧ s''.Ready l c ts := by
  refine ⟨Read.restore s s', ?_, ready.restore ahead.comments ahead.defaults⟩
  unfold Read.lookahead
  rw [read]

end ReadState.Ready

end Splice
