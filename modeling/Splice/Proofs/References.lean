import Splice.Define.Report
import Splice.Proofs.Keys
import Splice.Proofs.Substitution

/-!
# The variables that are read

A value that is a reference stands for the content of the variable it names, and this content is not
resolved again. So the environment is seen only at the variables that values name themselves: two
environments that agree on these give the same trees, the same counters and the same report.
-/
namespace Splice

/-- Some value of the table is a reference to the variable. -/
def Table.Names (t : Table) (name : String) : Prop :=
  ∃ key text, (key, Value.text text) ∈ t.entries.toList ∧ Environment.reference? text = some name

/-! ## Setting a variable -/

namespace Environment

theorem get?_erase_of_ne {name other : String} (different : name ≠ other) (env : Environment) :
    (env.erase other).get? name = env.get? name :=
  lookup_filter_ne different env.vars

theorem get?_insert_of_ne {name other : String} (different : name ≠ other) (env : Environment)
    (content : String) : (env.insert other content).get? name = env.get? name := by
  have absent : (name == other) = false := by simp [different]
  rw [get?, insert, List.lookup_cons, absent]
  exact get?_erase_of_ne different env

end Environment

/-! ## Two environments -/

/-- A value is resolved alike where its own variable is the same. -/
theorem Replacement.resolve_congr {a b : Environment} (v : Value)
    (agree : ∀ text name, v = .text text → Environment.reference? text = some name →
      a.get? name = b.get? name) : resolve a v = resolve b v := by
  cases v with
  | bool value => rfl
  | number value => rfl
  | text text =>
    cases named : Environment.reference? text with
    | none => simp only [resolve, named]
    | some name => simp only [resolve, named, agree text name rfl named]

namespace Pass

variable {t : Table} {a b : Environment}

theorem outcomeAt_congr (agree : ∀ name, t.Names name → a.get? name = b.get? name)
    (language : Language) (n : Node) :
    (Pass.mk t a language).outcomeAt n = (Pass.mk t b language).outcomeAt n := by
  unfold outcomeAt
  cases n.place with
  | part => rfl
  | value =>
    unfold outcome
    cases found : t.lookup n.render with
    | none => rfl
    | some v =>
      have member := Entries.mem_of_get? found
      have same : Replacement.resolve a v = Replacement.resolve b v :=
        Replacement.resolve_congr v fun text name shape named =>
          agree name ⟨n.render, text, shape ▸ member, named⟩
      simp only [outcomeOf, same]

/-- The walk sees an environment through its outcomes only. -/
theorem walk_congr {p q : Pass} (same : ∀ n, p.outcomeAt n = q.outcomeAt n) (n : Node) :
    p.walk n = q.walk n := by
  induction n using Node.induction_on with
  | step form place spans cs ih =>
    have parts : p.walkAll cs = q.walkAll cs := by
      induction cs with
      | nil => rfl
      | cons c cs rest =>
        rw [walkAll, walkAll, ih c (by simp), rest fun d member => ih d (by simp [member])]
    have form' : p.afterParts form cs = q.afterParts form cs := by
      cases form <;> simp only [afterParts, same]
    rw [walk, walk, same, parts, form']

theorem run_congr (agree : ∀ name, t.Names name → a.get? name = b.get? name)
    (language : Language) (program : Node) :
    (Pass.mk t a language).run program = (Pass.mk t b language).run program := by
  unfold run
  rw [walk_congr (outcomeAt_congr agree language) program]

end Pass

theorem Report.ofTable_congr {t : Table} {a b : Environment}
    (agree : ∀ name, t.Names name → a.get? name = b.get? name) : ofTable t a = ofTable t b := by
  unfold ofTable
  congr 1
  refine List.map_congr_left fun e member => ?_
  have same : Replacement.resolve a e.2 = Replacement.resolve b e.2 :=
    Replacement.resolve_congr e.2 fun text name shape named =>
      agree name ⟨e.1, text, shape ▸ member, named⟩
  simp only [entryOf, same]

/-- Only the variables that values name are read: environments that agree on them give the same
tree, the same counters and the same report. So setting or unsetting any other variable, among them
those that are named in the content of a variable only, changes nothing. -/
theorem Pass.only_named_variables_are_read (c : Config) (language : Language) (program : Node) :
    let t := Table.ofConfig c
    (∀ a b : Environment, (∀ name, t.Names name → a.get? name = b.get? name) →
      (Pass.mk t a language).run program = (Pass.mk t b language).run program ∧
      Report.ofTable t a = Report.ofTable t b) ∧
    (∀ (env : Environment) (other : String), ¬ t.Names other →
      (∀ content, (Pass.mk t (env.insert other content) language).run program =
          (Pass.mk t env language).run program ∧
        Report.ofTable t (env.insert other content) = Report.ofTable t env) ∧
      (Pass.mk t (env.erase other) language).run program = (Pass.mk t env language).run program ∧
      Report.ofTable t (env.erase other) = Report.ofTable t env) := by
  intro t
  have read : ∀ a b : Environment, (∀ name, t.Names name → a.get? name = b.get? name) →
      (Pass.mk t a language).run program = (Pass.mk t b language).run program ∧
      Report.ofTable t a = Report.ofTable t b := fun a b agree =>
    ⟨run_congr agree language program, Report.ofTable_congr agree⟩
  refine ⟨read, fun env other unnamed => ⟨fun content => ?_, ?_⟩⟩
  · refine read _ _ fun name named => Environment.get?_insert_of_ne ?_ env content
    rintro rfl
    exact unnamed named
  · refine read _ _ fun name named => Environment.get?_erase_of_ne ?_ env
    rintro rfl
    exact unnamed named

/-- The variable that the table names holds a reference to a second one: the reference itself is put
in, whatever the second variable holds. -/
theorem Pass.only_named_variables_are_read_once :
    let t := Table.ofConfig ⟨{ toList := [("A", .text "process.env.OUTER")] }⟩
    let env : Environment := ⟨[("OUTER", "process.env.INNER")]⟩
    ¬ t.Names "INNER" ∧ ∃ program, parse .plain "x = A;" = .ok program ∧
      (Pass.mk t (env.insert "INNER" "1") .plain).run program.tree =
        (Pass.mk t env .plain).run program.tree ∧
      ((Pass.mk t env .plain).run program.tree).2.replaced = 1 ∧
      (Report.ofTable t (env.insert "INNER" "1")).entries.map (·.resolved) =
        [some "process.env.INNER"] := by
  intro t env
  have unnamed : ¬ t.Names "INNER" := by
    rintro ⟨key, text, member, named⟩
    have entries : t.entries.toList = [("A", .text "process.env.OUTER")] := by decide +kernel
    rw [entries] at member
    obtain ⟨rfl, rfl⟩ : key = "A" ∧ text = "process.env.OUTER" := by simpa using member
    exact absurd named (by decide +kernel)
  refine ⟨unnamed, ?_⟩
  have run : (parse .plain "x = A;").toOption.any (fun program =>
      decide (((Pass.mk t env .plain).run program.tree).2.replaced = 1)) = true := by
    decide +kernel
  cases parsed : parse .plain "x = A;" with
  | error problems =>
    rw [parsed] at run
    cases run
  | ok program =>
    rw [parsed] at run
    have once := ((Pass.only_named_variables_are_read
      ⟨{ toList := [("A", .text "process.env.OUTER")] }⟩ .plain program.tree).2 env "INNER" unnamed).1 "1"
    refine ⟨program, rfl, once.1, of_decide_eq_true run, ?_⟩
    rw [once.2]
    decide +kernel

/-- A variable is named by a whole value only, with blanks around it at most. -/
example :
    (Table.ofConfig ⟨{ toList := [("A", .text " process.env.X\n"), ("B", .text "process.env.Y.y")] }⟩).references =
      ["X"] := by decide +kernel

end Splice
