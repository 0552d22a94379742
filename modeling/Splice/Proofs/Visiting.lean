import Splice.Proofs.Shorthands
import Splice.Transform

/-!
# The visitor and the walk

The visitor asks for the value of a shorthand property before it goes on to the parts, and stops there
if the value is a key. The walk has no such rule: it treats the parts of all nodes alike and mends the
property afterwards. Where every shorthand stands for the variable of its name the key has nothing to
replace, and the two give the same tree and the same counters. A program that was read is such a tree,
and so is what passes make of it.
-/
namespace Splice

namespace Pass

variable {p : Pass}

/-- Only a shorthand property has a rule of its own, and only such a property is mended. -/
theorem visitShorthand_of_not_shorthand {form : Form} (cs : List Node)
    (plain : ∀ t, form = .property t → t.shorthand = false) :
    p.visitShorthand form cs = none ∧ p.afterParts form cs = form := by
  cases form with
  | property t =>
    have off := plain t rfl
    refine ⟨?_, by simp [afterParts, off]⟩
    unfold visitShorthand
    split
    next same =>
      obtain rfl := Form.property.inj same
      rw [off]
      rfl
    next => rfl
  | _ => exact ⟨rfl, rfl⟩

/-- What the rule makes of a property is what the walk makes of it. -/
theorem visitShorthand_getD {form : Form} {cs : List Node} (agrees : form.Agrees cs) :
    (p.visitShorthand form cs).getD (form, p.walkAll cs) = (p.afterParts form cs, p.walkAll cs) := by
  by_cases short : ∃ t, form = .property t ∧ t.shorthand = true
  · obtain ⟨t, rfl, shorthand⟩ := short
    obtain ⟨w, s, s', rfl⟩ := agrees shorthand
    -- the key is no expression and has no parts, so the walk leaves it as it is
    have parts : p.walkAll [.mk (.name w) .part s [], .mk (.identifier w) .value s' []] =
        ([.mk (.name w) .part s [], (p.walk (.mk (.identifier w) .value s' [])).1],
          (p.walk (.mk (.identifier w) .value s' [])).2) := by
      have key : p.walk (.mk (.name w) .part s []) = (.mk (.name w) .part s [], {}) := rfl
      simp only [walkAll, key, Stats.zero_add, Stats.add_zero]
    cases outcome : p.outcomeAt (.mk (.identifier w) .value s' []) with
    | noMatch => simp [visitShorthand, afterParts, shorthand, outcome, Outcome.isReplaced]
    | replaced e =>
      simp [visitShorthand, afterParts, shorthand, outcome, Outcome.isReplaced, parts, walk]
    | unresolved =>
      simp [visitShorthand, afterParts, shorthand, outcome, Outcome.isReplaced, parts, walk]
    | rejected =>
      simp [visitShorthand, afterParts, shorthand, outcome, Outcome.isReplaced, parts, walk]
  · obtain ⟨none, same⟩ := visitShorthand_of_not_shorthand (p := p) cs fun t is =>
      Bool.eq_false_of_not_eq_true fun shorthand => short ⟨t, is, shorthand⟩
    rw [none, same, Option.getD_none]

theorem visitAll_eq_walkAll {cs : List Node} (each : ∀ c ∈ cs, p.visit c = p.walk c) :
    p.visitAll cs = p.walkAll cs := by
  induction cs with
  | nil => rfl
  | cons c cs ih =>
    obtain ⟨here, below⟩ := List.forall_mem_cons.mp each
    rw [visitAll, walkAll, here, ih below]

/-- The visitor does what the walk does. -/
theorem visit_eq_walk {n : Node} (agree : n.ShorthandsAgree) : p.visit n = p.walk n := by
  induction n using Node.induction_on with
  | step form place spans cs ih =>
    obtain ⟨here, below⟩ := Node.shorthandsAgree_mk.mp agree
    have parts : p.visitAll cs = p.walkAll cs := visitAll_eq_walkAll fun c inside =>
      ih c inside (below c inside)
    have mended := visitShorthand_getD (p := p) here
    rw [visit, walk]
    cases p.outcomeAt (.mk form place spans cs) with
    | replaced e => rfl
    | unresolved => rfl
    | rejected => rfl
    | noMatch =>
      cases rule : p.visitShorthand form cs with
      | none =>
        rw [rule, Option.getD_none, Prod.mk.injEq] at mended
        simp only [parts, ← mended.1]
      | some settled =>
        rw [rule, Option.getD_some] at mended
        simp only [mended]

theorem visitProgram_eq_run {n : Node} (agree : n.ShorthandsAgree) : p.visitProgram n = p.run n := by
  rw [visitProgram, run, visit_eq_walk agree]

/-- Visiting a program again and again is running the passes one after the other. -/
theorem visits_eq_runs (passes : List Pass) {n : Node} (agree : n.ShorthandsAgree) :
    passes.foldl (fun m p => (p.visitProgram m).1) n = runs passes n := by
  unfold runs
  induction passes generalizing n with
  | nil => rfl
  | cons p passes ih =>
    rw [List.foldl_cons, List.foldl_cons, visitProgram_eq_run agree]
    exact ih (run_shorthandsAgree agree)

end Pass

/-- A text that can be read is transformed by running the pass over its tree. -/
theorem transform_of_parse {t : Table} {env : Environment} {path source : String} {minify : Bool}
    {parsed : Parsed} (read : parse (Language.ofPath path) source = .ok parsed) :
    transform t env path source minify =
      .ok ⟨((⟨t, env, Language.ofPath path⟩ : Pass).run parsed.tree).1.print parsed.comments minify,
        ((⟨t, env, Language.ofPath path⟩ : Pass).run parsed.tree).2⟩ := by
  have agree := (parse_grammatical read).shorthandsAgree
  simp only [transform, read, Pass.visitProgram_eq_run agree]

end Splice
