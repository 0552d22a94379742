import Splice.Proofs.Grammar.Type

/-!
# Functions, classes and literals are grammatical
-/
namespace Splice

open Std.Do

set_option mvcgen.warning false

variable {input : Source}

namespace Read

attribute [local simp] Form.Takes Form.Asks Form.assigned Form.Agrees Form.isExpression Form.isAtom
  Form.isOpen Form.isMarked Form.Complete Form.arity Form.pieces Form.sparePieces

variable {go : Descend} [go.Sound]

/-! ## Bodies -/

theorem asDirective_grammatical {source : List Char} {n d : Node}
    (directive : asDirective source n = some d) : d.Grammatical := by
  unfold asDirective at directive
  split at directive
  · split at directive
    · cases directive
      simp
    · cases directive
  · cases directive

@[spec] theorem nextStatement_spec {whole : Bool} {acc : List Node} {first : Bool}
    (statements : ∀ n ∈ acc, n.Grammatical) :
    Yields (nextStatement go whole acc first) (Step.All fun r => ∀ n ∈ r.1, n.Grammatical) := by
  mvcgen [nextStatement]
  all_goals simp_all
  exact asDirective_grammatical ‹_›

@[spec] theorem statements_spec {whole : Bool} :
    Yields (statements go whole) fun ns => ∀ n ∈ ns, n.Grammatical := by
  have loop := @iterate_spec input (List Node × Bool) fun r => ∀ n ∈ r.1, n.Grammatical
  mvcgen [statements, loop]
  all_goals
    clear loop
    simp_all

@[spec] theorem functionBody_spec : Yields (functionBody go) Node.Grammatical := by
  mvcgen [functionBody]
  all_goals simp_all

/-! ## Functions with a keyword, and methods -/

@[spec] theorem functionName_spec {role : FunctionRole} {required async generator : Bool} :
    Yields (functionName role required async generator) Node.Grammatical := by
  mvcgen [functionName]
  all_goals simp_all

@[spec] theorem functionRest_spec {s : Nat} {name : Node} {traits : FunctionTraits}
    {bodiless : Bool} (grammatical : name.Grammatical) :
    Yields (functionRest go s name traits bodiless) Node.IsExpression := by
  mvcgen [functionRest]
  all_goals simp +zetaDelta [*]

@[spec] theorem keywordFunction_spec {s : Nat} {traits : FunctionTraits} {required : Bool} :
    Yields (keywordFunction go s traits required) Node.IsExpression := by
  mvcgen [keywordFunction]
  all_goals simp_all

@[spec] theorem functionExpression_spec : Yields (functionExpression go) Node.IsExpression := by
  mvcgen [functionExpression]

/-! ## Arrow functions -/

/-- The parts of an arrow function before its body are grammatical. -/
def ArrowHead.Grammatical (h : ArrowHead) : Prop :=
  h.typeParameters.Grammatical ∧ h.parameters.Grammatical ∧ h.result.Grammatical ∧
    h.colon.length ≤ 1

@[spec] theorem arrowSignature_spec : Yields (arrowSignature go) fun ns =>
    ns.1.Grammatical ∧ ns.2.1.Grammatical ∧ ns.2.2.1.Grammatical ∧ ns.2.2.2.length ≤ 1 := by
  mvcgen [arrowSignature]
  all_goals simp_all

@[spec] theorem arrowHead_spec : Yields (arrowHead go) ArrowHead.Grammatical := by
  mvcgen [arrowHead]

@[spec] theorem arrowBody_spec {h : ArrowHead} {resultType : Bool} (head : h.Grammatical) :
    Yields (arrowBody go h resultType) Node.IsExpression := by
  mvcgen [arrowBody]
  all_goals
    simp_all +zetaDelta [ArrowHead.Grammatical]
    try omega

@[spec] theorem soleArrow_spec {s : Nat} {async : Bool} {name : String} {span : Span}
    {resultType : Bool} : Yields (soleArrow go s async name span resultType) Node.IsExpression := by
  mvcgen [soleArrow]
  simp +zetaDelta [ArrowHead.Grammatical, soleParameter]

@[spec] theorem guessArrow_spec : Yields guessArrow fun _ => True := any _

@[spec] theorem parenthesizedArrow_spec {resultType : Bool} :
    Yields (parenthesizedArrow go resultType) fun o => ∀ n ∈ o, n.IsExpression := by
  have head := attempt_spec (@arrowHead_spec _ go _)
  mvcgen [parenthesizedArrow, head]
  all_goals simp_all

@[spec] theorem asyncSoleArrow_spec {resultType : Bool} :
    Yields (asyncSoleArrow go resultType) fun o => ∀ n ∈ o, n.IsExpression := by
  mvcgen [asyncSoleArrow]
  all_goals simp_all

/-! ## Classes -/

/-- What follows `extends` or `implements` is grammatical. -/
structure Heritage.Grammatical (h : Heritage) : Prop where
  bases : ∀ b ∈ h.bases, b.1.Grammatical ∧ b.2.Grammatical
  contracts : ∀ n ∈ h.contracts, n.Grammatical

namespace Heritage.Grammatical

variable {h : Heritage}

theorem empty : ({} : Heritage).Grammatical := ⟨nofun, nofun⟩

theorem head (grammatical : h.Grammatical) :
    (h.bases.headD (.absent, .absent)).1.Grammatical ∧
      (h.bases.headD (.absent, .absent)).2.Grammatical := by
  have bases := grammatical.bases
  cases all : h.bases with
  | nil => simp
  | cons b bs => exact bases b (all ▸ List.mem_cons_self)

theorem extends_ (grammatical : h.Grammatical) {bs : List (Node × Node)}
    (more : ∀ b ∈ bs, b.1.Grammatical ∧ b.2.Grammatical) :
    ({ h with bases := h.bases ++ bs } : Heritage).Grammatical where
  bases b inside := (List.mem_append.mp inside).elim (grammatical.bases b) (more b)
  contracts := grammatical.contracts

theorem implements (grammatical : h.Grammatical) {cs : List Node} (more : ∀ n ∈ cs, n.Grammatical) :
    ({ h with contracts := h.contracts ++ cs, hasContracts := true } : Heritage).Grammatical where
  bases := grammatical.bases
  contracts n inside := (List.mem_append.mp inside).elim (grammatical.contracts n) (more n)

end Heritage.Grammatical

@[spec] theorem base_spec : Yields (base go) fun b => b.1.Grammatical ∧ b.2.Grammatical := by
  mvcgen [base]
  · exact Node.Grammatical.of_pair (Node.IsExpression.grammatical ‹_›) ‹_›
  all_goals simp_all

theorem commaList_spec {α : Type} {good : α → Prop} {item : Read α} (yields : Yields item good) :
    Yields (commaList item) fun as => ∀ a ∈ as, good a := by
  have loop := @iterate_spec input (List α) fun as => ∀ a ∈ as, good a
  mvcgen [commaList, loop, yields]
  all_goals
    clear loop
    simp_all

@[spec] theorem contract_spec : Yields (contract go) Node.Grammatical := by
  mvcgen [contract]
  all_goals simp_all

@[spec] theorem heritage_spec : Yields (heritage go) Heritage.Grammatical := by
  refine iterate_spec _ .empty fun h grammatical => bind_spec (any _) fun _ _ => ?_
  extract_lets afterExtends afterImplements
  have extended (u : Unit) : Yields (afterExtends u) (Step.All Heritage.Grammatical) := by
    refine bind_spec (any _) fun _ _ => bind_spec (commaList_spec base_spec) fun bs more => ?_
    mvcgen
    exact grammatical.extends_ more
  have implemented (u : Unit) : Yields (afterImplements u) (Step.All Heritage.Grammatical) := by
    refine bind_spec (any _) fun _ _ => bind_spec (commaList_spec contract_spec) fun cs more => ?_
    mvcgen
    exact grammatical.implements more
  split
  · split
    · exact bind_spec (any _) fun u _ => extended u
    · exact noteIf_spec extended
  · refine bind_spec (any _) fun _ _ => ?_
    split
    · exact noteIf_spec implemented
    · mvcgen

/-! ## Members -/

@[spec] theorem memberKey_spec {ms : List String} :
    Yields (memberKey go ms) fun k => k.1.Grammatical := by
  mvcgen [memberKey]

@[spec] theorem method_spec {s : Nat} {ds : List Node} {key : Node} {traits : MemberTraits}
    {async generator : Bool} (decorators : ∀ d ∈ ds, d.Grammatical) (grammatical : key.Grammatical) :
    Yields (method go s ds key traits async generator) Node.Grammatical := by
  unfold method
  refine bind_spec (any _) fun _ _ => bind_spec (functionRest_spec Node.grammatical_absent)
    fun f function => ?_
  -- the checks do not change the method, so it is enough to look at the last step
  extract_lets named finish afterThis afterKind afterGenerator afterAsync afterAccessor
  have finished (u : Unit) : Yields (finish u) Node.Grammatical := by
    mvcgen [finish]
    simp_all
  have kindChecked (u : Unit) : Yields (afterKind u) Node.Grammatical := by
    unfold afterKind
    split
    · exact bind_spec (any _) fun u _ => finished u
    · exact bind_spec (any _) fun u _ => finished u
    · exact noteIf_spec fun _ => noteIf_spec finished
    · exact finished ()
  have constructorChecked (u : Unit) : Yields (afterAsync u) Node.Grammatical :=
    noteIf_spec fun _ => noteIf_spec kindChecked
  have accessorChecked (u : Unit) : Yields (afterAccessor u) Node.Grammatical := by
    unfold afterAccessor
    split
    · exact noteIf_spec constructorChecked
    · exact kindChecked ()
  exact bind_spec (any _) fun _ _ => noteIf_spec accessorChecked

@[spec] theorem field_spec {s : Nat} {ds : List Node} {key : Node} {traits : MemberTraits}
    (decorators : ∀ d ∈ ds, d.Grammatical) (grammatical : key.Grammatical) :
    Yields (field go s ds key traits) Node.Grammatical := by
  unfold field
  refine bind_spec typeMark_spec fun t type => bind_spec (any _) fun _ _ => ?_
  extract_lets afterValue
  have afterValue_spec (v : Node) (value : v.Grammatical) :
      Yields (afterValue v) Node.Grammatical := by
    refine bind_spec (any _) fun _ _ => ?_
    extract_lets finish afterName afterEnd
    have finished (u : Unit) : Yields (finish u) Node.Grammatical := by
      mvcgen [finish]
      simp_all
    have ended (u : Unit) : Yields (afterEnd u) Node.Grammatical := by
      unfold afterEnd
      split
      · exact noteIf_spec fun _ => noteIf_spec finished
      · exact finished ()
    split
    · exact bind_spec (any _) fun _ _ => ended ()
    · exact bind_spec (any _) fun u _ => ended u
  clear_value afterValue
  mvcgen [afterValue_spec]
  all_goals simp_all

@[spec] theorem methodOrField_spec {s : Nat} {ds : List Node} {ms : List String}
    (decorators : ∀ d ∈ ds, d.Grammatical) :
    Yields (methodOrField go s ds ms) Node.Grammatical := by
  mvcgen +jp [methodOrField]
  all_goals simp_all

@[spec] theorem accessorMember_spec {s : Nat} {ds : List Node} {ms : List String}
    {kind : MethodKind} (decorators : ∀ d ∈ ds, d.Grammatical) :
    Yields (accessorMember go s ds ms kind) Node.Grammatical := by
  mvcgen [accessorMember]
  all_goals simp_all

@[spec] theorem classMember_spec : Yields (classMember go) Node.Grammatical := by
  mvcgen [classMember]
  all_goals simp_all
  exact Node.Grammatical.parts ‹_›

@[spec] theorem classBody_spec : Yields (classBody go) fun ns => ∀ n ∈ ns, n.Grammatical := by
  mvcgen [classBody, iterate_nodes_spec]
  all_goals simp_all

@[spec] theorem classRest_spec {s : Nat} {ds : List Node} {traits : ClassTraits}
    (decorators : ∀ d ∈ ds, d.Grammatical) : Yields (classRest go s ds traits) Node.IsExpression := by
  have made {name tps : Node} {h : Heritage} {ms : List Node} {place : Place} {span braces : Span}
      (named : name.Grammatical) (typeParameters : tps.Grammatical) (heritage : h.Grammatical)
      (members : ∀ n ∈ ms, n.Grammatical) : (Node.mk (.classDef traits) place
        ⟨span, [braces]⟩ [.group ds, name, tps, (h.bases.headD (.absent, .absent)).1,
          (h.bases.headD (.absent, .absent)).2, .group h.contracts, .group ms]).IsExpression := by
    obtain ⟨base, arguments⟩ := heritage.head
    rw [Node.isExpression_mk]
    refine ⟨rfl, rfl, .of_none rfl trivial, by simp, ?_⟩
    simp only [List.forall_mem_cons, Node.grammatical_group]
    exact ⟨decorators, named, typeParameters, base, arguments, heritage.contracts, members,
      List.forall_mem_nil _⟩
  mvcgen [classRest]
  all_goals first
    | exact made ‹_› ‹_› ‹_› ‹_›
    | exact made Node.grammatical_absent ‹_› ‹_› ‹_›

@[spec] theorem classExpression_spec : Yields (classExpression go) Node.IsExpression := by
  mvcgen [classExpression]
  all_goals simp_all

/-! ## Literals -/

@[spec] theorem spreadable_spec : Yields (spreadable go) Node.Grammatical := by
  mvcgen [spreadable]
  all_goals simp_all

@[spec] theorem arrayLiteral_spec : Yields (arrayLiteral go) Node.IsExpression := by
  have elements := @separated_spec input _ Node.Grammatical .rbracket .comma
  mvcgen [arrayLiteral, elements]
  all_goals
    clear elements
    simp_all

@[spec] theorem objectAccessor_spec {s : Nat} {kind : PropertyKind} :
    Yields (objectAccessor go s kind) Node.Grammatical := by
  mvcgen [objectAccessor]
  all_goals simp_all

omit [go.Sound] in
/-- A key that begins with a name is this name. -/
theorem propertyKey_name {s t : ReadState input} {k : Node × Bool} {w : String}
    (name : nameWord? s.token.kind = some w) (read : propertyKey go s = .ok k t) :
    ∃ span, k.1 = .mk (.name w) .part span [] := by
  unfold propertyKey at read
  rw [token_bind] at read
  cases kind : s.token.kind with
  | word v =>
    rw [kind] at name read
    obtain ⟨-, rfl⟩ : ¬ isReservedWord v = true ∧ v = w := by simpa [nameWord?] using name
    obtain ⟨⟨v', span⟩, u, word, last⟩ := bind_inv read
    unfold anyWord at word
    rw [token_bind, kind] at word
    obtain ⟨-, u', -, result⟩ := bind_inv word
    obtain ⟨same, -⟩ := pure_inv result
    obtain ⟨rfl, -⟩ := pure_inv last
    obtain ⟨rfl, rfl⟩ := Prod.mk.inj same
    exact ⟨_, rfl⟩
  | _ => rw [kind] at name; cases name

/-- What follows a key may rely on its being the name that stood there. -/
theorem keyed_spec {α : Type} {f : TokenKind → Node × Bool → Read α} {good : α → Prop}
    (next : ∀ first k, first.Tidy → k.1.Grammatical →
      (∀ w, nameWord? first = some w → ∃ span, k.1 = .mk (.name w) .part span []) →
      Yields (f first k) good) :
    Yields (do f (← kind) (← propertyKey go)) good := by
  rw [yields_iff]
  intro s a u read
  rw [kind_bind] at read
  obtain ⟨k, t, key, rest⟩ := bind_inv read
  have grammatical : k.1.Grammatical := yields_iff.mp propertyKey_spec _ _ _ key
  exact yields_iff.mp (next s.token.kind k s.tidy grammatical fun w name => propertyKey_name name key)
    _ _ _ rest

theorem isUsableName_spec {k : TokenKind} :
    Yields (isUsableName k) fun usable => usable = true → ∃ w, nameWord? k = some w := by
  refine yields_iff.mpr fun s usable t read sure => ?_
  obtain ⟨rfl, -⟩ := pure_inv (read : (pure _ : Read Bool) s = _)
  simp only [Bool.and_eq_true] at sure
  exact Option.isSome_iff_exists.mp sure.1.1

@[spec] theorem objectMember_spec : Yields (objectMember go) Node.Grammatical := by
  unfold objectMember
  refine bind_spec (any _) fun s _ => bind_spec (any _) fun spread _ => ?_
  split
  · exact spreadable_spec
  refine bind_spec (any _) fun ms _ => bind_spec (any _) fun isGetter _ => ?_
  split
  · exact bind_spec (any _) fun _ _ => objectAccessor_spec
  refine bind_spec (any _) fun isSetter _ => ?_
  split
  · exact bind_spec (any _) fun _ _ => objectAccessor_spec
  refine bind_spec (any _) fun generator _ => keyed_spec fun first k tidy grammatical name => ?_
  refine bind_spec (any _) fun after _ => ?_
  split
  · mvcgen
    all_goals simp_all
  refine bind_spec isUsableName_spec fun usable word => ?_
  split
  next shorthand =>
    -- the value of the new property is the variable that its key names
    obtain ⟨w, named⟩ := word (by simp_all)
    obtain ⟨span, key⟩ := name w named
    have undotted : '.' ∉ w.toList := nameWord?_tidy tidy named
    have assigned (span : Span) :
        ((Node.mk (.identifier w) .value span []).withPlace .part).IsAssignable := by
      refine ⟨?_, rfl, .inr rfl⟩
      simp [Node.withPlace, undotted]
    mvcgen
    all_goals simp_all +zetaDelta
  next =>
    mvcgen
    all_goals simp_all

@[spec] theorem objectLiteral_spec : Yields (objectLiteral go) Node.IsExpression := by
  have members := @separated_spec _ _ _ .rbrace .comma _ (@objectMember_spec _ go _)
  mvcgen [objectLiteral, members]
  all_goals simp_all

end Read

end Splice
