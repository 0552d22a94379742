import Splice.Define.Replacement
import Splice.Proofs.Trimming

/-!
# The form of a reference

A value is a reference to a variable if it has the form `process.env.NAME`, between white space, with
a name of ASCII letters, digits, underscores and dollar signs. Every text of this form is one, and
nothing else is; the name is the only one that the form allows.
-/
namespace Splice

namespace Environment

def IsLetter (c : Char) : Prop := 'A' ≤ c ∧ c ≤ 'Z' ∨ 'a' ≤ c ∧ c ≤ 'z'

def IsDigit (c : Char) : Prop := '0' ≤ c ∧ c ≤ '9'

/-- A letter, an underscore or a dollar sign, followed by any number of these and of digits. -/
inductive VariableName : List Char → Prop where
  | intro {first : Char} {rest : List Char}
      (start : IsLetter first ∨ first = '_' ∨ first = '$')
      (parts : ∀ c ∈ rest, IsLetter c ∨ IsDigit c ∨ c = '_' ∨ c = '$') :
      VariableName (first :: rest)

/-- The text is a reference to the variable, between white space. -/
def Refers (text name : String) : Prop :=
  ∃ before after, text = before ++ "process.env." ++ name ++ after ∧
    AllWhiteSpace before.toList ∧ AllWhiteSpace after.toList ∧ VariableName name.toList

/-! ## Names -/

theorem isAlpha_iff (c : Char) : c.isAlpha = true ↔ IsLetter c := by
  unfold Char.isAlpha Char.isUpper Char.isLower
  simp only [IsLetter, Bool.or_eq_true, Bool.and_eq_true, decide_eq_true_iff]
  rfl

theorem isDigit_iff (c : Char) : c.isDigit = true ↔ IsDigit c := by
  simp only [Char.isDigit, IsDigit, Bool.and_eq_true, decide_eq_true_iff]
  rfl

theorem isVariableName_iff (name : List Char) : isVariableName name = true ↔ VariableName name := by
  cases name with
  | nil => exact ⟨nofun, nofun⟩
  | cons c cs =>
    have start : isNameStart c = true ↔ IsLetter c ∨ c = '_' ∨ c = '$' := by
      simp only [isNameStart, Bool.or_eq_true, isAlpha_iff, beq_iff_eq, or_assoc]
    have part : ∀ d, isNamePart d = true ↔ IsLetter d ∨ IsDigit d ∨ d = '_' ∨ d = '$' := by
      intro d
      simp only [isNamePart, isNameStart, Bool.or_eq_true, isAlpha_iff, isDigit_iff, beq_iff_eq]
      grind
    simp only [isVariableName, Bool.and_eq_true, List.all_eq_true, start, part]
    constructor
    · rintro ⟨first, rest⟩
      exact ⟨first, rest⟩
    · rintro ⟨first, rest⟩
      exact ⟨first, rest⟩

/-- No character of a name is trimmed off. -/
theorem VariableName.visible {name : List Char} (valid : VariableName name) :
    ∀ c ∈ name, ¬ IsWhiteSpace c := by
  have letter : ∀ c, IsLetter c → 65 ≤ c.toNat ∧ c.toNat ≤ 122 := by
    rintro c (⟨low, high⟩ | ⟨low, high⟩)
    · exact ⟨low, le_trans (show c.toNat ≤ 90 from high) (by decide)⟩
    · exact ⟨le_trans (by decide) (show 97 ≤ c.toNat from low), high⟩
  have digit : ∀ c, IsDigit c → 48 ≤ c.toNat ∧ c.toNat ≤ 57 := fun c inside => inside
  have shown : ∀ c, IsLetter c ∨ IsDigit c ∨ c = '_' ∨ c = '$' → ¬ IsWhiteSpace c := by
    rintro c (is | is | rfl | rfl)
    · have range := letter c is
      simp only [IsWhiteSpace, whiteSpaceCodes, List.mem_cons, List.not_mem_nil, or_false]
      omega
    · have range := digit c is
      simp only [IsWhiteSpace, whiteSpaceCodes, List.mem_cons, List.not_mem_nil, or_false]
      omega
    · decide
    · decide
  obtain ⟨start, parts⟩ := valid
  intro c inside
  rcases List.mem_cons.mp inside with rfl | later
  · exact shown c (start.imp_right Or.inr)
  · exact shown c (parts c later)

theorem VariableName.ne_nil {name : List Char} (valid : VariableName name) : name ≠ [] := by
  cases valid
  exact List.cons_ne_nil _ _

/-! ## References -/

theorem namespaceText_eq :
    namespaceText = ['p', 'r', 'o', 'c', 'e', 's', 's', '.', 'e', 'n', 'v', '.'] := by
  decide +kernel

theorem afterText?_eq_some_iff {start cs rest : List Char} :
    afterText? start cs = some rest ↔ cs = start ++ rest := by
  fun_induction afterText? start cs with
  | case1 cs => simp
  | case2 p ps cs ih => rw [ih, List.cons_append, List.cons.injEq, and_iff_right rfl]
  | case3 p ps c cs other => simp [Ne.symm other]
  | case4 p ps => simp

theorem toList_reference (before name after : String) :
    (before ++ "process.env." ++ name ++ after).toList =
      before.toList ++ (namespaceText ++ name.toList) ++ after.toList := by
  rw [String.toList_append, String.toList_append, String.toList_append,
    List.append_assoc before.toList]
  rfl

/-- Without the white space, a reference is the namespace and the name. -/
theorem refers_iff {text name : String} :
    Refers text name ↔ Blank.trim text.toList = namespaceText ++ name.toList ∧
      VariableName name.toList := by
  constructor
  · rintro ⟨before, after, rfl, blank, blank', valid⟩
    refine ⟨Blank.trim_eq_iff.mpr ?_, valid⟩
    constructor
    · exact ⟨before.toList, after.toList, toList_reference before name after, blank, blank'⟩
    · rw [namespaceText_eq]
      intro c first
      obtain rfl : 'p' = c := Option.some.inj first
      decide
    · obtain ⟨last, found⟩ := Option.isSome_iff_exists.mp
        (List.getLast?_isSome.mpr valid.ne_nil)
      rw [List.getLast?_append, found]
      intro c same
      obtain rfl : last = c := Option.some.inj same
      exact valid.visible last (List.mem_of_getLast? found)
  · rintro ⟨trimmed, valid⟩
    obtain ⟨before, after, parts, blank, blank'⟩ := (Blank.trim_eq_iff.mp trimmed).parts
    refine ⟨String.ofList before, String.ofList after, ?_, by simpa using blank, by simpa using blank',
      valid⟩
    rw [← String.toList_inj, parts, toList_reference, String.toList_ofList, String.toList_ofList]

/-- The texts that are read as references are those of the form of a reference. -/
theorem reference?_eq_some_iff {text name : String} :
    reference? text = some name ↔ Refers text name := by
  rw [refers_iff, ← isVariableName_iff]
  unfold reference?
  cases found : afterText? namespaceText (Blank.trim text.toList) with
  | none =>
    refine ⟨nofun, fun ⟨trimmed, _⟩ => ?_⟩
    rw [afterText?_eq_some_iff.mpr trimmed] at found
    cases found
  | some rest =>
    have trimmed := afterText?_eq_some_iff.mp found
    rw [trimmed, List.append_cancel_left_eq]
    dsimp only
    split
    next valid =>
      constructor
      · intro same
        obtain rfl := Option.some.inj same
        simpa using valid
      · rintro ⟨rfl, -⟩
        rw [String.ofList_toList]
    next invalid =>
      refine ⟨nofun, ?_⟩
      rintro ⟨rfl, valid⟩
      exact absurd valid invalid

end Environment

namespace Replacement

open Environment

theorem resolve_of_refers {text name : String} (refers : Refers text name) (env : Environment) :
    resolve env (.text text) =
      match env.get? name with
      | some content => .resolved (classify content)
      | none => .unset name := by
  cases found : env.get? name with
  | none => simp only [resolve, reference?_eq_some_iff.mpr refers, found]
  | some content => simp only [resolve, reference?_eq_some_iff.mpr refers, found]

theorem resolve_of_not_refers {text : String} (plain : ∀ name, ¬ Refers text name)
    (env : Environment) : resolve env (.text text) = .resolved (classify text) := by
  cases found : reference? text with
  | none => simp only [resolve, found]
  | some name => exact absurd (reference?_eq_some_iff.mp found) (plain name)

theorem resolve_eq_unset_iff {text name : String} {env : Environment} :
    resolve env (.text text) = .unset name ↔ Refers text name ∧ env.get? name = none := by
  constructor
  · intro unset
    cases found : reference? text with
    | none =>
      simp only [resolve, found] at unset
      cases unset
    | some other =>
      have refers := reference?_eq_some_iff.mp found
      rw [resolve_of_refers refers] at unset
      cases content : env.get? other with
      | none =>
        rw [content] at unset
        obtain rfl : other = name := by injection unset
        exact ⟨refers, content⟩
      | some _ =>
        rw [content] at unset
        cases unset
  · rintro ⟨refers, missing⟩
    rw [resolve_of_refers refers, missing]

end Replacement

/-- The references are the texts of the form of a reference, each of them to one variable. In every
environment a value of this form becomes the content of the variable, classified, or is unset if the
variable is; any other value is classified itself. -/
theorem Environment.references_have_form (text : String) :
    (∀ name, reference? text = some name ↔ Refers text name) ∧
    (∀ name other, Refers text name → Refers text other → name = other) ∧
    ∀ env : Environment,
      (∀ name, Refers text name → Replacement.resolve env (.text text) =
        match env.get? name with
        | some content => .resolved (.classify content)
        | none => .unset name) ∧
      (∀ name, Replacement.resolve env (.text text) = .unset name ↔
        Refers text name ∧ env.get? name = none) ∧
      ((∀ name, ¬ Refers text name) →
        Replacement.resolve env (.text text) = .resolved (.classify text)) := by
  refine ⟨fun name => reference?_eq_some_iff, ?_, fun env => ⟨?_, ?_, ?_⟩⟩
  · intro name other refers refers'
    have found := reference?_eq_some_iff.mpr refers
    rw [reference?_eq_some_iff.mpr refers'] at found
    exact (Option.some.inj found).symm
  · exact fun name refers => Replacement.resolve_of_refers refers env
  · exact fun name => Replacement.resolve_eq_unset_iff
  · exact fun plain => Replacement.resolve_of_not_refers plain env

/-- A reference between an ideographic space and a line feed, whose variable holds a reference; and a
longer chain of members, which is none. -/
theorem Environment.references_have_form_spaced :
    let text := "\u3000process.env.$a_1\n"
    let env : Environment := ⟨[("$a_1", "process.env.B"), ("B", "true")]⟩
    Refers text "$a_1" ∧ reference? text = some "$a_1" ∧
      Replacement.resolve env (.text text) = .resolved (.classify "process.env.B") ∧
      Replacement.resolve {} (.text text) = .unset "$a_1" ∧
      (∀ name, ¬ Refers "process.env.B.C" name) ∧
      Replacement.resolve env (.text "process.env.B.C") =
        .resolved (.classify "process.env.B.C") := by
  intro text env
  have refers : Refers text "$a_1" := by
    refine ⟨"\u3000", "\n", by decide +kernel, by decide +kernel, by decide +kernel, ?_⟩
    exact (isVariableName_iff _).mp (by decide +kernel)
  obtain ⟨form, -, resolves⟩ := references_have_form text
  obtain ⟨form', -, resolves'⟩ := references_have_form "process.env.B.C"
  have plain : ∀ name, ¬ Refers "process.env.B.C" name := by
    intro name refers'
    have none : reference? "process.env.B.C" = none := by decide +kernel
    rw [(form' name).mpr refers'] at none
    cases none
  exact ⟨refers, (form _).mpr refers, (resolves env).1 _ refers,
    ((resolves {}).2.1 _).mpr ⟨refers, rfl⟩, plain, (resolves' env).2.2 plain⟩

end Splice
