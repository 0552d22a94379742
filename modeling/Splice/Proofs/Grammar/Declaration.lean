import Splice.Proofs.Grammar.Expression

/-!
# Declarations, imports and exports are grammatical
-/
namespace Splice

open Std.Do

set_option mvcgen.warning false

variable {input : Source}

namespace Read

attribute [local simp] Form.Takes Form.Asks Form.assigned Form.Agrees Form.isExpression Form.isAtom
  Form.isOpen Form.isMarked Form.Complete Form.arity Form.pieces Form.sparePieces

variable {go : Descend} [go.Sound]

/-! ## Variables -/

@[spec] theorem declarator_spec {kind : VariableKind} {inLoop : Bool} :
    Yields (declarator go kind inLoop) Node.Grammatical := by
  mvcgen +jp [declarator]
  simp_all
  exact Node.grammatical_of_ite ‹_›

@[spec] theorem variableList_spec {s : Nat} {kind : VariableKind} {declare inLoop : Bool} :
    Yields (variableList go s kind declare inLoop) Node.IsAssignable := by
  have items := commaList_spec (@declarator_spec _ go _ kind inLoop)
  mvcgen [variableList, items]
  exact (Node.isAssignable_mk rfl).mpr ⟨trivial, .of_none rfl trivial, by simp, ‹_›⟩

@[spec] theorem variableStatement_spec {s : Nat} {kind : VariableKind} {declare : Bool} :
    Yields (variableStatement go s kind declare) Node.Grammatical := by
  mvcgen [variableStatement]
  obtain ⟨grammatical, -⟩ := ‹Node.IsAssignable _›
  exact .intro nofun grammatical.takes grammatical.asks grammatical.complete grammatical.parts

/-! ## Interfaces and aliases -/

theorem heritage_grammatical {h : Heritage} (grammatical : h.Grammatical) :
    ∀ n ∈ h.bases.map (fun b => Node.mk .heritage .part b.1.span [b.1, b.2]), n.Grammatical := by
  simp only [List.forall_mem_map]
  intro b inside
  have base := grammatical.bases b inside
  simp_all

@[spec] theorem interfaceDeclaration_spec {s : Nat} {declare : Bool} :
    Yields (interfaceDeclaration go s declare) Node.Grammatical := by
  mvcgen [interfaceDeclaration]
  all_goals simp_all
  all_goals exact heritage_grammatical ‹_›

@[spec] theorem typeAlias_spec {s : Nat} {declare : Bool} :
    Yields (typeAlias go s declare) Node.Grammatical := by
  mvcgen [typeAlias]
  all_goals simp_all

/-! ## Enumerations -/

@[spec] theorem enumName_spec : Yields (enumName go) fun k => k.1.Grammatical := by
  mvcgen [enumName]
  all_goals simp_all [Node.Grammatical.withPlace]

@[spec] theorem enumMember_spec : Yields (enumMember go) Node.Grammatical := by
  mvcgen [enumMember]
  all_goals simp_all

@[spec] theorem enumDeclaration_spec {s : Nat} {isConst declare : Bool} :
    Yields (enumDeclaration go s isConst declare) Node.Grammatical := by
  have members := @separated_spec _ _ _ .rbrace .comma _ (@enumMember_spec _ go _)
  mvcgen [enumDeclaration, members]
  all_goals simp_all

/-! ## Namespaces -/

@[spec] theorem moduleBlock_spec : Yields (moduleBlock go) Node.Grammatical := by
  mvcgen [moduleBlock]
  all_goals simp_all

@[spec] theorem moduleName_spec : Yields moduleName Node.Grammatical := by
  mvcgen [moduleName]
  all_goals simp_all

/-- The namespaces inside a namespace with dots in its name. -/
theorem nested_grammatical {names : List Node} (all : ∀ n ∈ names, n.Grammatical) {body : Node}
    (grammatical : body.Grammatical) (stop : Nat) :
    (names.foldl (fun b n => Node.mk (.moduleDecl "" false) .part ⟨⟨n.start, stop⟩, []⟩ [n, b])
      body).Grammatical := by
  induction names generalizing body with
  | nil => exact grammatical
  | cons n names ih =>
    refine ih (fun m inside => all m (List.mem_cons_of_mem n inside)) ?_
    have first := all n List.mem_cons_self
    simp_all

@[spec] theorem moduleDeclaration_spec {s : Nat} {declare : Bool} :
    Yields (moduleDeclaration go s declare) Node.Grammatical := by
  have nested {names : List Node} (all : ∀ n ∈ names, n.Grammatical) {body : Node}
      (grammatical : body.Grammatical) (stop : Nat) :=
    nested_grammatical (fun n inside => all n (List.mem_of_mem_dropLast inside)) grammatical stop
  mvcgen [moduleDeclaration, iterate_nodes_spec]
  all_goals simp_all
  · exact nested ‹_› ‹_› _
  · exact nested ‹_› Node.grammatical_absent _

@[spec] theorem globalDeclaration_spec {s : Nat} {declare : Bool} :
    Yields (globalDeclaration go s declare) Node.Grammatical := by
  mvcgen [globalDeclaration]
  all_goals simp_all

/-! ## Aliases of imports -/

@[spec] theorem text_spec (r : Read (String × Bool)) : Yields r fun _ => True := any r

@[spec] theorem importedEntity_spec : Yields importedEntity Node.Grammatical := by
  mvcgen [importedEntity]
  all_goals simp_all

@[spec] theorem importEqualsRest_spec {s : Nat} {name : String × Span} {typeOnly : Bool} :
    Yields (importEqualsRest s name typeOnly) Node.Grammatical := by
  mvcgen [importEqualsRest]
  all_goals simp_all

/-! ## Choice -/

@[spec] theorem declaration_spec {s : Nat} {ms : List String} {ds : List Node}
    (decorators : ∀ d ∈ ds, d.Grammatical) : Yields (declaration go s ms ds) Node.Grammatical := by
  mvcgen [declaration]
  all_goals simp_all

@[spec] theorem modifiedDeclaration_spec {s : Nat} {ms : List String} {ds : List Node}
    (decorators : ∀ d ∈ ds, d.Grammatical) :
    Yields (modifiedDeclaration go s ms ds) Node.Grammatical := by
  mvcgen [modifiedDeclaration]

@[spec] theorem declarationStatement_spec {s : Nat} {ds : List Node}
    (decorators : ∀ d ∈ ds, d.Grammatical) :
    Yields (declarationStatement go s ds) Node.Grammatical := by
  mvcgen [declarationStatement]
  exact fun _ => decorators

/-! ## Imports -/

@[spec] theorem specifier_spec (r : Read Specifier) : Yields r fun _ => True := any r

@[spec] theorem binding_spec (r : Read (ModuleName × Span)) : Yields r fun _ => True := any r

@[simp] theorem clausePieces_none : Form.clausePieces none = 0 := rfl

/-- An attribute has a stretch of its own, and one each for its key and its value. -/
@[spec] theorem importAttribute_spec : Yields importAttribute fun a => a.2.length = 3 := by
  mvcgen [importAttribute]

theorem length_attributes {as : List (ImportAttribute × List Span)} (all : ∀ a ∈ as, a.2.length = 3) :
    (as.flatMap Prod.snd).length = 3 * as.length := by
  induction as with
  | nil => rfl
  | cons a as ih =>
    obtain ⟨first, rest⟩ := List.forall_mem_cons.mp all
    simp only [List.flatMap_cons, List.length_append, List.length_cons, first, ih rest]
    omega

/-- A clause of attributes comes with the spans of its pieces. -/
@[spec] theorem attributeClause_spec :
    Yields attributeClause fun r => r.2.length = Form.clausePieces r.1 := by
  have entries := @separated_spec input _ _ .rbrace .comma _ importAttribute_spec
  mvcgen [attributeClause, entries]
  all_goals first
    | rfl
    | simp +zetaDelta only [List.length_cons, List.length_map, length_attributes ‹_›,
        Form.clausePieces]

@[spec] theorem importSpecifier_spec {typeOnly : Bool} :
    Yields (importSpecifier typeOnly) Node.Grammatical := by
  mvcgen [importSpecifier]
  all_goals simp_all

@[spec] theorem importedNames_spec {typeOnly : Bool} :
    Yields (importedNames typeOnly) fun o => ∀ ns ∈ o, ∀ n ∈ ns, n.Grammatical := by
  have names := @separated_spec _ _ _ .rbrace .comma _ (@importSpecifier_spec input typeOnly)
  mvcgen [importedNames, names]
  all_goals simp_all

@[spec] theorem importSource_spec {s : Nat} {names : List Node} {braces typeOnly : Bool}
    {phase : Option String} (grammatical : ∀ n ∈ names, n.Grammatical) :
    Yields (importSource s names braces typeOnly phase) Node.Grammatical := by
  mvcgen [importSource]
  all_goals simp_all

theorem names_grammatical {o : Option (List Node)} (all : ∀ ns ∈ o, ∀ n ∈ ns, n.Grammatical) :
    ∀ n ∈ o.getD [], n.Grammatical := by
  cases o with
  | none => nofun
  | some ns => exact all ns rfl

-- What follows an optional part is one reader that is used in several places: its own fact is shown
-- once, and then it is not looked into any more.
@[spec] theorem importStatement_spec {s : Nat} : Yields (importStatement s) Node.Grammatical := by
  unfold importStatement
  refine bind_spec (any _) fun _ _ => bind_spec (any _) fun _ _ => ?_
  split
  · exact importSource_spec nofun
  refine bind_spec (any _) fun _ _ => bind_spec (any _) fun _ _ => ?_
  extract_lets afterType
  have afterType_spec (typeOnly : Bool) : Yields (afterType typeOnly) Node.Grammatical := by
    refine bind_spec (any _) fun _ _ => bind_spec (any _) fun _ _ => ?_
    extract_lets afterPhase
    have afterPhase_spec (phase : Option String) : Yields (afterPhase phase) Node.Grammatical := by
      unfold afterPhase
      clear afterPhase
      mvcgen
      all_goals simp_all
      all_goals exact fun _ => names_grammatical ‹_›
    clear_value afterPhase
    mvcgen [afterPhase_spec]
  clear_value afterType
  mvcgen [afterType_spec]

/-! ## Exports -/

@[spec] theorem exportSpecifier_spec {typeOnly : Bool} :
    Yields (exportSpecifier typeOnly) fun r => r.1.Grammatical := by
  mvcgen [exportSpecifier]
  all_goals simp_all

@[spec] theorem exportNames_spec {s : Nat} {typeOnly : Bool} :
    Yields (exportNames s typeOnly) Node.Grammatical := by
  have names := @separated_spec _ _ _ .rbrace .comma _ (@exportSpecifier_spec input typeOnly)
  mvcgen [exportNames, names]
  all_goals
    simp_all +zetaDelta
    assumption

@[spec] theorem exportAll_spec {s : Nat} {typeOnly : Bool} :
    Yields (exportAll s typeOnly) Node.Grammatical := by
  mvcgen [exportAll]
  all_goals simp_all

@[spec] theorem defaultExport_spec {s : Nat} {ds : List Node}
    (grammatical : ∀ d ∈ ds, d.Grammatical) : Yields (defaultExport go s ds) Node.Grammatical := by
  unfold defaultExport
  refine bind_spec (any _) fun _ _ => ?_
  extract_lets withDecorators
  have withDecorators_spec (ds : List Node) (grammatical : ∀ d ∈ ds, d.Grammatical) :
      Yields (withDecorators ds) Node.Grammatical := by
    refine bind_spec (any _) fun _ _ => bind_spec (any _) fun _ _ => bind_spec (any _) fun _ _ => ?_
    extract_lets isClass exported
    have exported_spec (u : Unit) : Yields (exported u) Node.Grammatical := by
      unfold exported
      clear exported
      mvcgen
      all_goals simp_all
    clear_value exported
    mvcgen [exported_spec]
  clear_value withDecorators
  split
  · exact bind_spec decorators_spec withDecorators_spec
  · exact withDecorators_spec ds grammatical

@[spec] theorem exportedDeclaration_spec {s : Nat} {ds : List Node}
    (decorators : ∀ d ∈ ds, d.Grammatical) :
    Yields (exportedDeclaration go s ds) Node.Grammatical := by
  mvcgen [exportedDeclaration]
  all_goals simp_all [or_imp]

@[spec] theorem exportStatement_spec {s : Nat} {ds : List Node}
    (decorators : ∀ d ∈ ds, d.Grammatical) : Yields (exportStatement go s ds) Node.Grammatical := by
  mvcgen [exportStatement]
  all_goals simp_all

end Read

end Splice
